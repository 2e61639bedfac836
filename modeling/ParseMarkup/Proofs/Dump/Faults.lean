import ParseMarkup.Proofs.Dump.Memory
import ParseMarkup.Proofs.Transport.Faulty

/-!
# Dumping over a transport with faults

What reaches a transport with faults is a prefix of the document, to the byte: the bytes before
the first hard fault if one lies within the document, and all of it otherwise. After a fault
nothing is written any more, and the transport is flushed once, by closing the writer.

The module introduces:

* `FaultyTransport.lockstep`: the bytes that a transport with faults has taken, from the text that
  was put;
* `FaultyTransport.Ready`: a transport at its beginning, with faults in order;
* `FaultyTransport.faultWithin`: the first hard fault within some bytes.

The main statement is `Node.dumpWith_faulty`.
-/

namespace ParseMarkup

/-- The bytes that a transport is given for a text. -/
def bytesOf (s : String) : List UInt8 := s.toByteArray.data.toList

theorem bytesOf_append (first second : String) :
    bytesOf (first ++ second) = bytesOf first ++ bytesOf second := by
  simp [bytesOf]

/-! ## Faults within a text -/

namespace FaultyTransport

/-- A transport with faults takes the bytes of the text up to its first hard fault. -/
def lockstep (start : FaultyTransport) : Lockstep FaultyTransport where
  InStep text t := InStep start t (bytesOf text)
  Stopped text err t := ∃ f, err = f.error ∧ StoppedBy f start t (bytesOf text)
  put_inStep := by
    intro text t h piece
    rw [bytesOf_append]
    rcases writeAll_inStep h (bytesOf piece) with ⟨t', hput, hinStep⟩ | ⟨f, t', hput, hstopped⟩
    · exact Or.inl ⟨t', hput, hinStep⟩
    · exact Or.inr ⟨f.error, t', hput, f, rfl, hstopped⟩
  stopped_append := by
    rintro text err t ⟨f, herror, hstopped⟩ piece
    refine ⟨f, herror, ?_⟩
    rw [bytesOf_append]
    exact hstopped.append _

/-- A transport that has taken nothing yet, whose writes take at least one byte if no fault is due,
and whose faults are laid down in order. -/
structure Ready (t : FaultyTransport) : Prop where
  received : t.received = #[]
  takes : ∀ limit, t.chunk = some limit → 0 < limit
  ascending : t.faults.Pairwise fun f g => f.position ≤ g.position

/-- A transport that is ready is in step with itself, with nothing taken. -/
theorem Ready.inStep {t : FaultyTransport} (h : t.Ready) : InStep t t [] where
  received := by rw [h.received]
  flushResults := rfl
  flushes := rfl
  takes := h.takes
  ascending := h.ascending
  ahead := fun f _ => Nat.zero_le f.position
  first := rfl

/-- The first hard fault that lies within so many bytes. -/
def faultWithin (t : FaultyTransport) (length : Nat) : Option Fault :=
  t.faults.find? fun f => f.isHard && decide (f.position < length)

/-- A fault that stopped the writing lies within the bytes that were to be written. -/
theorem StoppedBy.faultWithin {f : Fault} {start t : FaultyTransport} {bytes : List UInt8}
    (h : StoppedBy f start t bytes) : start.faultWithin bytes.length = some f := by
  -- no fault before it is hard, and it lies within the bytes
  obtain ⟨hhard, before, after, hfaults, hsoft⟩ := List.find?_eq_some_iff_append.1 h.first
  refine List.find?_eq_some_iff_append.2 ⟨by simp [hhard, h.within], before, after, hfaults, ?_⟩
  intro g hmem
  have hnotHard := hsoft g hmem
  rw [Bool.not_eq_true'] at hnotHard
  rw [hnotHard]
  rfl

/-- If the faults are in order and the first hard fault was not met, no other was. -/
theorem InStep.faultWithin {start t : FaultyTransport} {bytes : List UInt8}
    (h : InStep start t bytes)
    (hascending : start.faults.Pairwise fun f g => f.position ≤ g.position) :
    start.faultWithin bytes.length = none := by
  refine List.find?_eq_none.2 fun f hmem hboth => ?_
  rw [Bool.and_eq_true, decide_eq_true_eq] at hboth
  obtain ⟨hhard, hwithin⟩ := hboth
  cases hfirst : start.faults.find? Fault.isHard with
  | none => exact List.find?_eq_none.1 hfirst f hmem hhard
  | some g =>
    have hahead := h.ahead g (List.mem_of_find?_eq_some (h.first.trans hfirst))
    obtain ⟨-, before, after, hfaults, hsoft⟩ := List.find?_eq_some_iff_append.1 hfirst
    rw [hfaults] at hmem hascending
    -- the fault is not before the first hard one, so it is not nearer either
    rcases List.mem_append.1 hmem with hmem | hmem
    · have hnotHard := hsoft f hmem
      rw [hhard] at hnotHard
      cases hnotHard
    · rcases List.mem_cons.1 hmem with rfl | hmem
      · omega
      · have hlater := List.rel_of_pairwise_cons (List.pairwise_append.1 hascending).2.1 hmem
        omega

end FaultyTransport

/-! ## Flushing and closing -/

namespace XmlWriter

variable (t : FaultyTransport) (openElements : List String) (startTagOpen : Bool)

/-- An open writer passes a flush on to its transport and reports what that reports. -/
theorem call_flush :
    Sink.call .flush (⟨t, openElements, startTagOpen, false⟩ : XmlWriter FaultyTransport) =
      match t.flushError? with
      | none => .ok () ⟨t.flushed, openElements, startTagOpen, false⟩
      | some err => .error err ⟨t.flushed, openElements, startTagOpen, false⟩ := by
  have hcalled :
      Sink.call .flush (⟨t, openElements, startTagOpen, false⟩ : XmlWriter FaultyTransport) =
        onTransport FaultyTransport.flush ⟨t, openElements, startTagOpen, false⟩ := rfl
  rw [hcalled]
  simp only [onTransport, FaultyTransport.flush_eq]
  cases t.flushError? <;> rfl

/-- An open writer flushes its transport on closing, and is closed whatever the flush reports. -/
theorem call_close :
    Sink.call .close (⟨t, openElements, startTagOpen, false⟩ : XmlWriter FaultyTransport) =
      match t.flushError? with
      | none => .ok () ⟨t.flushed, openElements, startTagOpen, true⟩
      | some err => .error err ⟨t.flushed, openElements, startTagOpen, true⟩ := by
  have hcalled :
      Sink.call .close (⟨t, openElements, startTagOpen, false⟩ : XmlWriter FaultyTransport) =
        onTransport FaultyTransport.flush ⟨t, openElements, startTagOpen, true⟩ := rfl
  rw [hcalled]
  simp only [onTransport, FaultyTransport.flush_eq]
  cases t.flushError? <;> rfl

end XmlWriter

/-- How a dump ended, of which only the transport is kept. -/
def transportEnding (ended : Option DumpError × XmlWriter FaultyTransport) :
    Option DumpError × FaultyTransport :=
  (ended.1, ended.2.transport)

namespace Script

variable {s : Script} {sink x : XmlWriter FaultyTransport} {error? : Option DumpError}

/-- Closing flushes the transport once. The error of that flush counts only if there is no earlier
one. -/
theorem transportEnding_playAndClose (hplayed : s.play sink = (error?, x))
    (hopen : x.closed = false) :
    transportEnding (s.playAndClose sink) =
      (error? <|> x.transport.flushError?.map .sink, x.transport.flushed) := by
  obtain ⟨t, openElements, startTagOpen, closed⟩ := x
  cases hopen
  rw [playAndClose, hplayed]
  simp only [XmlWriter.call_close]
  cases t.flushError? with
  | none => cases error? <;> rfl
  | some err => cases error? <;> rfl

end Script

/-! ## Dumping -/

section Dump

variable {L V : Type} [Display L] [Display V]

/-- Over any transport with faults, the document is put as a whole or up to the first hard fault
that lies within it. -/
theorem Node.replay_bodyEvents_faulty (config : DumpConfig) (t : Node L V) {start : FaultyTransport}
    (hready : start.Ready) :
    (∃ x, replay (t.bodyEvents config) (XmlWriter.new start) = .ok () x ∧ x.closed = false ∧
      start.InStep x.transport (bytesOf (t.documentText config))) ∨
    ∃ (f : Fault) (x : XmlWriter FaultyTransport),
      replay (t.bodyEvents config) (XmlWriter.new start) = .error f.error x ∧ x.closed = false ∧
        FaultyTransport.StoppedBy f start x.transport (bytesOf (t.documentText config)) := by
  obtain ⟨w, htaken, -⟩ := t.replay_bodyEvents_memory config
  obtain ⟨hopen, hdumped⟩ := Node.ending_dumpWith_memory htaken
  have htext : t.documentText config = w.transport.text :=
    congrArg (fun ended => ended.2.transport.text) hdumped
  have hwrites : ∀ e ∈ t.bodyEvents config, e.writes = true := fun e hmem =>
    writes_of_mem_bodyEvents hmem
  -- the text is the one written over memory, where every call is taken
  have hfollows := XmlWriter.follows_replay start.lockstep hwrites
  rw [htext]
  rcases hfollows.keeps htaken hready.inStep with
    ⟨t', hdone, hinStep⟩ | ⟨err, x, hfailed, hxOpen, hstopped⟩
  · exact Or.inl ⟨w.onto t', hdone, hopen, hinStep⟩
  · obtain ⟨f, rfl, hstopped⟩ := hstopped
    exact Or.inr ⟨f, x, hfailed, hxOpen, hstopped⟩

/-- A document that is put as a whole is followed by a flush, unless a node is too deep, and by the
flush of closing. -/
theorem Node.transportEnding_of_taken {config : DumpConfig} {t : Node L V}
    {start : FaultyTransport} {x : XmlWriter FaultyTransport}
    (htaken : replay (t.bodyEvents config) (XmlWriter.new start) = .ok () x)
    (hopen : x.closed = false) :
    transportEnding (t.dumpWith config (XmlWriter.new start)).ending =
      match (t.documentScript config).stop? with
      | some err => (some err, x.transport.flushed)
      | none => ((x.transport.flushError? <|> x.transport.flushed.flushError?).map .sink,
          x.transport.flushed.flushed) := by
  have hcalls := t.calls_documentScript config
  rw [ending_dumpWith]
  cases hstop : (t.documentScript config).stop? with
  | some err =>
    -- a dump that is too deep makes no call after the body
    have hplayed : (t.documentScript config).play (XmlWriter.new start) = (some err, x) := by
      rw [hstop, if_neg (by simp), List.append_nil] at hcalls
      rw [Script.play, hcalls, htaken, hstop]
    rw [Script.transportEnding_playAndClose hplayed hopen]
    rfl
  | none =>
    rw [hstop, if_pos rfl] at hcalls
    obtain ⟨t', openElements, startTagOpen, closed⟩ := x
    cases hopen
    -- the flush of the document may fail, and closing flushes once more in any case
    cases hfirst : t'.flushError? with
    | none =>
      have hplayed : (t.documentScript config).play (XmlWriter.new start) =
          (none, ⟨t'.flushed, openElements, startTagOpen, false⟩) := by
        rw [Script.play, hcalls, replay_append_ok htaken, replay_cons_ok (by
          rw [XmlWriter.call_flush, hfirst]), hstop]
        rfl
      rw [Script.transportEnding_playAndClose hplayed rfl]
      rfl
    | some err =>
      have hplayed : (t.documentScript config).play (XmlWriter.new start) =
          (some (.sink err), ⟨t'.flushed, openElements, startTagOpen, false⟩) := by
        have hcalled := XmlWriter.call_flush t' openElements startTagOpen
        rw [hfirst] at hcalled
        rw [Script.play, hcalls, replay_append_ok htaken]
        simp only [replay, bind, EStateM.bind, hcalled]
      rw [Script.transportEnding_playAndClose hplayed rfl]
      rfl

/-- A document that does not get through is followed by the flush of closing alone. -/
theorem Node.transportEnding_of_failed {config : DumpConfig} {t : Node L V}
    {start : FaultyTransport} {err : StreamError} {x : XmlWriter FaultyTransport}
    (hfailed : replay (t.bodyEvents config) (XmlWriter.new start) = .error err x)
    (hopen : x.closed = false) :
    transportEnding (t.dumpWith config (XmlWriter.new start)).ending =
      (some (.sink err), x.transport.flushed) := by
  have hplayed : (t.documentScript config).play (XmlWriter.new start) = (some (.sink err), x) := by
    rw [Script.play, calls_documentScript, replay_append]
    simp only [bind, EStateM.bind, hfailed]
  rw [ending_dumpWith, Script.transportEnding_playAndClose hplayed hopen]
  rfl

/-- Without faults, the document arrives as a whole, and nothing but the limit of depth is an
error. -/
theorem Node.dumpWith_faultless (config : DumpConfig) (t : Node L V) :
    (t.dumpWith config (XmlWriter.new ({} : FaultyTransport))).error? =
        (t.documentScript config).stop? ∧
      (t.dumpWith config (XmlWriter.new ({} : FaultyTransport))).sink.transport.received.toList =
        bytesOf (t.documentText config) := by
  have hready : ({} : FaultyTransport).Ready := ⟨rfl, by simp, List.Pairwise.nil⟩
  rcases t.replay_bodyEvents_faulty config hready with
    ⟨x, htaken, hopen, hinStep⟩ | ⟨f, x, -, -, hstopped⟩
  · have hended := Node.transportEnding_of_taken htaken hopen
    rw [hinStep.flushError?_eq, hinStep.flushError?_flushed_eq] at hended
    cases hstop : (t.documentScript config).stop?
    all_goals
      rw [hstop] at hended
      obtain ⟨herror, htransport⟩ := Prod.mk.inj hended
      exact ⟨herror, (congrArg (fun t => t.received.toList) htransport).trans hinStep.received⟩
  · -- there is no fault to be stopped by
    cases hstopped.first

/-- What reaches a transport with faults is a prefix of the document. If the first hard fault
within it lies at some position, that many bytes arrive, the error is that of the fault, and the
transport is flushed once. If there is none, all of it arrives; then the error is that of the
depth after one flush, or else the first one of two flushes. -/
theorem Node.dumpWith_faulty (config : DumpConfig) (t : Node L V) {start : FaultyTransport}
    (hready : start.Ready) :
    let whole := t.dumpWith config (XmlWriter.new ({} : FaultyTransport))
    let document := whole.sink.transport.received.toList
    let outcome := t.dumpWith config (XmlWriter.new start)
    (whole.error? = none ∨ ∃ depth limit, whole.error? = some (.depthLimitExceeded depth limit)) ∧
    match start.faultWithin document.length with
    | some f =>
      outcome.sink.transport.received.toList = document.take f.position ∧
        outcome.error? = some (.sink f.error) ∧
        outcome.sink.transport.flushes = start.flushes + 1
    | none =>
      outcome.sink.transport.received.toList = document ∧
        match whole.error? with
        | some err =>
          outcome.error? = some err ∧ outcome.sink.transport.flushes = start.flushes + 1
        | none =>
          outcome.error? = (start.flushError? <|> start.flushed.flushError?).map .sink ∧
            outcome.sink.transport.flushes = start.flushes + 2 := by
  intro whole document outcome
  obtain ⟨herror, hbytes⟩ : whole.error? = (t.documentScript config).stop? ∧
      document = bytesOf (t.documentText config) := t.dumpWith_faultless config
  refine ⟨herror ▸ stop?_scriptOf _ _ _, ?_⟩
  -- either the whole document was taken, or the first hard fault lies within it
  rcases t.replay_bodyEvents_faulty config hready with
    ⟨x, htaken, hopen, hinStep⟩ | ⟨f, x, hfailed, hopen, hstopped⟩
  · rw [hbytes, hinStep.faultWithin hready.ascending, herror]
    have hended := Node.transportEnding_of_taken htaken hopen
    cases hstop : (t.documentScript config).stop? with
    | some err =>
      rw [hstop] at hended
      obtain ⟨herror, htransport⟩ := Prod.mk.inj hended
      change outcome.sink.transport = _ at htransport
      rw [htransport]
      exact ⟨hinStep.received, herror, congrArg (· + 1) hinStep.flushes⟩
    | none =>
      rw [hstop] at hended
      obtain ⟨herror, htransport⟩ := Prod.mk.inj hended
      change outcome.sink.transport = _ at htransport
      rw [htransport]
      refine ⟨hinStep.received, ?_, congrArg (· + 2) hinStep.flushes⟩
      rw [← hinStep.flushError?_eq, ← hinStep.flushError?_flushed_eq]
      exact herror
  · rw [hbytes, hstopped.faultWithin]
    obtain ⟨herror, htransport⟩ := Prod.mk.inj (Node.transportEnding_of_failed hfailed hopen)
    change outcome.sink.transport = _ at htransport
    change _ ∧ _ ∧ _
    rw [htransport]
    exact ⟨hstopped.received, herror, congrArg (· + 1) hstopped.flushes⟩

/-- An interruption on the way does not show, the write that takes nothing does, and the error of
the flush that follows it does not. -/
theorem Node.dumpWith_faulty_stall :
    let start : FaultyTransport :=
      { chunk := some 4
        faults := [⟨3, .fail ⟨.interrupted, "again"⟩⟩, ⟨6, .stall⟩]
        flushResults := [some ⟨.brokenPipe, "gone"⟩] }
    let outcome :=
      (Node.error ⟨"1", "2"⟩ : Node String String).dumpWith .default (XmlWriter.new start)
    start.Ready ∧ outcome.sink.transport.received.toList = bytesOf "<?xml " ∧
      outcome.error? = some (.sink .writeZero) ∧ outcome.sink.transport.flushes = 1 := by
  intro start outcome
  have hready : start.Ready := ⟨rfl, by simp [start], by simp [start]⟩
  have htext : (Node.error ⟨"1", "2"⟩ : Node String String).documentText .default =
      "<?xml version=\"1.0\"?>" ++ "<?xml-stylesheet href=\"tree.xsl\" type=\"text/xsl\"?>" ++
        "<error left=\"1\" right=\"2\"/>" := by rfl
  have harrived := (Node.dumpWith_faulty .default (.error ⟨"1", "2"⟩ : Node String String) hready).2
  have hfault : start.faultWithin
      (bytesOf ((Node.error ⟨"1", "2"⟩ : Node String String).documentText .default)).length =
        some ⟨6, .stall⟩ := by
    rw [htext]
    decide
  rw [(Node.dumpWith_faultless _ _).2, hfault, htext] at harrived
  obtain ⟨hreceived, herror, hflushes⟩ := harrived
  exact ⟨hready, hreceived.trans (by decide), herror, hflushes⟩

end Dump

end ParseMarkup
