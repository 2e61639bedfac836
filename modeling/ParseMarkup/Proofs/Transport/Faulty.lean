import ParseMarkup.Transport.Faulty

/-!
# What a transport with faults takes

Writing a piece as a whole goes through many writes, each of which may take a part, be interrupted
or fail. What is left of that is simple: interruptions do not show, and the first other fault that
lies within the bytes cuts them off at its position.

The module introduces:

* `Fault.isHard` and `Fault.error`: whether a fault ends the writing of a piece, and with which
  error;
* `FaultyTransport.Regular`: a transport whose faults lie ahead, in order;
* `FaultyTransport.InStep`: a transport that has taken all bytes so far;
* `FaultyTransport.StoppedBy`: a transport that was stopped by a fault within the bytes.

The main statements: a regular transport takes a piece as a whole or up to its first hard fault,
and is regular again (`FaultyTransport.Regular.writeAll`); so a transport in step is in step with
one more piece after that was written, or is stopped by the first hard fault of all
(`FaultyTransport.writeAll_inStep`).
-/

namespace ParseMarkup

/-! ## Hard faults -/

namespace Fault

/-- Whether a fault ends the writing of a piece. A write that was interrupted is tried again. -/
def isHard (f : Fault) : Bool :=
  match f.refusal with
  | .stall => true
  | .fail err => err.kind ≠ .interrupted

/-- The error of a fault that ends the writing of a piece. -/
def error (f : Fault) : StreamError :=
  match f.refusal with
  | .stall => .writeZero
  | .fail err => err

/-- How the write ends that meets a fault. -/
def result (f : Fault) : WriteResult :=
  match f.refusal with
  | .stall => .took 0
  | .fail err => .failed err

/-- A fault at which a write takes bytes takes none, and that is an error. -/
theorem isHard_of_result_took {f : Fault} {n : Nat} (h : f.result = .took n) :
    f.isHard = true ∧ f.error = .writeZero ∧ n = 0 := by
  unfold result at h
  unfold isHard error
  cases hrefusal : f.refusal with
  | stall =>
    rw [hrefusal] at h
    cases h
    exact ⟨rfl, rfl, rfl⟩
  | fail err =>
    rw [hrefusal] at h
    cases h

/-- A fault at which a write fails is hard unless the write was only interrupted. -/
theorem isHard_of_result_failed {f : Fault} {err : StreamError} (h : f.result = .failed err) :
    f.isHard = decide (err.kind ≠ .interrupted) ∧ f.error = err := by
  unfold result at h
  unfold isHard error
  cases hrefusal : f.refusal with
  | stall =>
    rw [hrefusal] at h
    cases h
  | fail err' =>
    rw [hrefusal] at h
    cases h
    exact ⟨rfl, rfl⟩

end Fault

namespace FaultyTransport

/-! ## A single write -/

/-- The same transport with other faults to come. -/
def withFaults (t : FaultyTransport) (faults : List Fault) : FaultyTransport := { t with faults }

theorem capped_le (n : Nat) (limit : Option Nat) : capped n limit ≤ n := by
  cases limit with
  | none => exact Nat.le_refl n
  | some limit => exact Nat.min_le_left n limit

/-- A cap that allows a byte leaves something of a positive count. -/
theorem capped_pos {n : Nat} (hpos : 0 < n) {limit : Option Nat} (h : ∀ l, limit = some l → 0 < l) :
    0 < capped n limit := by
  cases limit with
  | none => exact hpos
  | some l => exact Nat.lt_min.2 ⟨hpos, h l rfl⟩

/-- A single write takes some bytes, none of them beyond the next fault, unless it meets that
fault. -/
theorem write_cases (t : FaultyTransport) (piece : List UInt8) :
    (∃ count, t.write piece = (.took count, t.take piece count) ∧ count ≤ piece.length ∧
      (∀ f ∈ t.faults.head?, t.received.size + count ≤ f.position) ∧
      ((∀ limit, t.chunk = some limit → 0 < limit) → piece ≠ [] → 0 < count)) ∨
    ∃ f later, t.faults = f :: later ∧ f.position ≤ t.received.size ∧
      t.write piece = (f.result, t.withFaults later) := by
  -- the two caps, of the chunk and of the room before the next fault, only ever lower the count
  have htakenLe : ∀ room, t.accepted piece.length room ≤ piece.length := fun room =>
    Nat.le_trans (capped_le _ _) (capped_le _ _)
  unfold write
  cases hfaults : t.faults with
  | nil =>
    refine Or.inl ⟨_, rfl, htakenLe none, ?_, fun htakes hnonempty => ?_⟩
    · intro f hmem
      cases hmem
    · exact capped_pos (List.length_pos_iff.2 hnonempty) htakes
  | cons f later =>
    by_cases hdue : f.position ≤ t.received.size
    · refine Or.inr ⟨f, later, rfl, hdue, ?_⟩
      simp only [if_pos hdue, Fault.result, withFaults]
      cases f.refusal <;> rfl
    · simp only [if_neg hdue]
      refine Or.inl ⟨_, rfl, htakenLe _, ?_, fun htakes hnonempty => ?_⟩
      · intro f' hmem
        cases hmem
        have hroom : t.accepted piece.length (some (f.position - t.received.size)) ≤
            f.position - t.received.size := Nat.min_le_right _ _
        omega
      · have hsomeTaken := capped_pos (List.length_pos_iff.2 hnonempty) htakes
        refine capped_pos hsomeTaken ?_
        intro room heq
        cases heq
        omega

/-- A write that takes bytes meets no fault. -/
theorem write_took_succ {t t' : FaultyTransport} {piece : List UInt8} {n : Nat}
    (hwritten : t.write piece = (.took (n + 1), t')) :
    t' = t.take piece (n + 1) ∧ n + 1 ≤ piece.length ∧
      ∀ f ∈ t.faults.head?, t.received.size + (n + 1) ≤ f.position := by
  rcases t.write_cases piece with
    ⟨count, htook, hwithin, hroom, -⟩ | ⟨f, later, hfaults, hdue, hmet⟩
  · rw [htook] at hwritten
    cases hwritten
    exact ⟨rfl, hwithin, hroom⟩
  · rw [hmet, Prod.mk.injEq] at hwritten
    obtain ⟨-, -, hzero⟩ := Fault.isHard_of_result_took hwritten.1
    cases hzero

/-- A write that takes nothing of a piece that is not empty meets a fault. -/
theorem write_took_zero {t t' : FaultyTransport} {piece : List UInt8}
    (htakes : ∀ limit, t.chunk = some limit → 0 < limit) (hnonempty : piece ≠ [])
    (hwritten : t.write piece = (.took 0, t')) :
    ∃ f later, t.faults = f :: later ∧ f.position ≤ t.received.size ∧ t' = t.withFaults later ∧
      f.isHard = true ∧ f.error = .writeZero := by
  rcases t.write_cases piece with ⟨count, htook, -, -, hpos⟩ | ⟨f, later, hfaults, hdue, hmet⟩
  · rw [htook] at hwritten
    cases hwritten
    exact absurd (hpos htakes hnonempty) (Nat.lt_irrefl 0)
  · rw [hmet, Prod.mk.injEq] at hwritten
    obtain ⟨hhard, herror, -⟩ := Fault.isHard_of_result_took hwritten.1
    exact ⟨f, later, hfaults, hdue, hwritten.2.symm, hhard, herror⟩

/-- A write that fails meets a fault, which is hard unless the write was only interrupted. -/
theorem write_failed {t t' : FaultyTransport} {piece : List UInt8} {err : StreamError}
    (hwritten : t.write piece = (.failed err, t')) :
    ∃ f later, t.faults = f :: later ∧ f.position ≤ t.received.size ∧ t' = t.withFaults later ∧
      f.isHard = decide (err.kind ≠ .interrupted) ∧ f.error = err := by
  rcases t.write_cases piece with ⟨count, htook, -⟩ | ⟨f, later, hfaults, hdue, hmet⟩
  · rw [htook] at hwritten
    cases hwritten
  · rw [hmet, Prod.mk.injEq] at hwritten
    obtain ⟨hhard, herror⟩ := Fault.isHard_of_result_failed hwritten.1
    exact ⟨f, later, hfaults, hdue, hwritten.2.symm, hhard, herror⟩

/-! ## Regular transports -/

/-- A transport whose writes take at least one byte if no fault is due, and whose faults lie ahead,
in order. -/
structure Regular (t : FaultyTransport) : Prop where
  takes : ∀ limit, t.chunk = some limit → 0 < limit
  ascending : t.faults.Pairwise fun f g => f.position ≤ g.position
  ahead : ∀ f ∈ t.faults, t.received.size ≤ f.position

/-- The faults still to come that end the writing of a piece. -/
def hardFaults (t : FaultyTransport) : List Fault := t.faults.filter Fault.isHard

/-- `t'` is what becomes of a regular transport `t` that takes some bytes, whatever faults it uses
up. -/
structure Took (t t' : FaultyTransport) (bytes : List UInt8) : Prop where
  received : t'.received.toList = t.received.toList ++ bytes
  flushResults : t'.flushResults = t.flushResults
  flushes : t'.flushes = t.flushes
  regular : t'.Regular

theorem Took.size_received {t t' : FaultyTransport} {bytes : List UInt8} (h : Took t t' bytes) :
    t'.received.size = t.received.size + bytes.length := by
  rw [← Array.length_toList, h.received, List.length_append, Array.length_toList]

theorem Took.trans {t t' t'' : FaultyTransport} {bytes bytes' : List UInt8} (h : Took t t' bytes)
    (h' : Took t' t'' bytes') : Took t t'' (bytes ++ bytes') where
  received := by rw [h'.received, h.received, List.append_assoc]
  flushResults := h'.flushResults.trans h.flushResults
  flushes := h'.flushes.trans h.flushes
  regular := h'.regular

variable {t : FaultyTransport}

theorem Regular.took_nil (h : t.Regular) : Took t t [] where
  received := (List.append_nil _).symm
  flushResults := rfl
  flushes := rfl
  regular := h

/-- Bytes before the next fault are taken. -/
theorem Regular.took_take (h : t.Regular) {piece : List UInt8} {count : Nat}
    (hwithin : count ≤ piece.length)
    (hroom : ∀ f ∈ t.faults.head?, t.received.size + count ≤ f.position) :
    Took t (t.take piece count) (piece.take count) where
  received := by simp [FaultyTransport.take]
  flushResults := rfl
  flushes := rfl
  regular := by
    refine ⟨h.takes, h.ascending, ?_⟩
    intro f hmem
    have hsize : (t.take piece count).received.size = t.received.size + count := by
      rw [← Array.length_toList]
      simp [FaultyTransport.take, hwithin]
    rw [faults_take] at hmem
    rw [hsize]
    have hascending := h.ascending
    cases hfaults : t.faults with
    | nil => rw [hfaults] at hmem; cases hmem
    | cons next later =>
      rw [hfaults] at hmem hascending hroom
      -- the next fault is the nearest one
      have hhead := hroom next rfl
      rcases List.mem_cons.1 hmem with rfl | hmem
      · exact hhead
      · exact Nat.le_trans hhead (List.rel_of_pairwise_cons hascending hmem)

/-- A fault that is met is used up. -/
theorem Regular.took_withFaults (h : t.Regular) {f : Fault} {later : List Fault}
    (hfaults : t.faults = f :: later) : Took t (t.withFaults later) [] where
  received := (List.append_nil _).symm
  flushResults := rfl
  flushes := rfl
  regular := by
    refine ⟨h.takes, (List.pairwise_cons.1 (hfaults ▸ h.ascending)).2, ?_⟩
    intro g hmem
    exact h.ahead g (hfaults ▸ List.mem_cons_of_mem f hmem)

/-- A soft fault that is used up leaves the hard ones. -/
theorem hardFaults_withFaults_of_soft {f : Fault} {later : List Fault}
    (hfaults : t.faults = f :: later) (hsoft : f.isHard = false) :
    (t.withFaults later).hardFaults = t.hardFaults := by
  rw [hardFaults, hardFaults, hfaults, List.filter_cons_of_neg (by simp [hsoft])]
  rfl

/-- The next fault is the first of the hard ones if it is hard. -/
theorem hardFaults_of_hard {f : Fault} {later : List Fault} (hfaults : t.faults = f :: later)
    (hhard : f.isHard = true) : t.hardFaults = f :: (t.withFaults later).hardFaults := by
  rw [hardFaults, hardFaults, hfaults, List.filter_cons_of_pos hhard]
  rfl

/-- A hard fault that is met lies right after the bytes, so none of the piece is taken. -/
theorem Regular.stop (h : t.Regular) {f : Fault} {later : List Fault}
    (hfaults : t.faults = f :: later) (hhard : f.isHard = true)
    (hdue : f.position ≤ t.received.size) {piece : List UInt8} (hnonempty : piece ≠ []) :
    t.hardFaults = f :: (t.withFaults later).hardFaults ∧
      f.position < t.received.size + piece.length ∧
      Took t (t.withFaults later) (piece.take (f.position - t.received.size)) := by
  have hpos := List.length_pos_iff.2 hnonempty
  refine ⟨hardFaults_of_hard hfaults hhard, by omega, ?_⟩
  rw [Nat.sub_eq_zero_of_le hdue, List.take_zero]
  exact h.took_withFaults hfaults

/-! ## A whole piece -/

/-- A piece is taken as a whole and no hard fault is met, or the first hard fault that is still to
come lies within it, and then the bytes before the fault are taken and the fault is used up. -/
theorem Regular.writeAll (h : t.Regular) (piece : List UInt8) :
    (∃ t', FaultyTransport.writeAll piece t = .ok () t' ∧ Took t t' piece ∧
      t'.hardFaults = t.hardFaults) ∨
    ∃ f t', FaultyTransport.writeAll piece t = .error f.error t' ∧
      t.hardFaults = f :: t'.hardFaults ∧ f.position < t.received.size + piece.length ∧
      Took t t' (piece.take (f.position - t.received.size)) := by
  -- one case for each way a write ends; the transport is regular after every write
  fun_induction FaultyTransport.writeAll piece t with
  | case1 piece t hempty =>
    rw [List.isEmpty_iff.1 hempty]
    exact Or.inl ⟨t, rfl, h.took_nil, rfl⟩
  | case2 piece t hnonempty t' hwritten =>
    have hnonempty : piece ≠ [] := fun heq => hnonempty (List.isEmpty_iff.2 heq)
    obtain ⟨f, later, hfaults, hdue, rfl, hhard, herror⟩ :=
      write_took_zero h.takes hnonempty hwritten
    rw [← herror]
    exact Or.inr ⟨f, _, rfl, h.stop hfaults hhard hdue hnonempty⟩
  | case3 piece t hnonempty n t' hwritten ih =>
    obtain ⟨rfl, hwithin, hroom⟩ := write_took_succ hwritten
    have hfirst := h.took_take hwithin hroom
    have hsize := hfirst.size_received
    rw [List.length_take, Nat.min_eq_left hwithin] at hsize
    rcases ih hfirst.regular with
      ⟨t'', hput, hrest, hhard⟩ | ⟨f, t'', hput, hhard, hposition, hrest⟩
    · -- what was taken and what is left of the piece make up the piece
      refine Or.inl ⟨t'', hput, ?_, hhard⟩
      have hwhole := hfirst.trans hrest
      rwa [List.take_append_drop] at hwhole
    · -- the fault is not behind what was taken
      have hmem : f ∈ (t.take piece (n + 1)).hardFaults := hhard ▸ List.mem_cons_self ..
      have hbehind := hfirst.regular.ahead f (List.mem_filter.1 hmem).1
      rw [hsize] at hbehind hposition hrest
      rw [List.length_drop] at hposition
      have hsplit : f.position - t.received.size =
          n + 1 + (f.position - (t.received.size + (n + 1))) := by omega
      refine Or.inr ⟨f, t'', hput, hhard, by omega, ?_⟩
      rw [hsplit, List.take_add]
      exact hfirst.trans hrest
  | case4 piece t hnonempty err t' hwritten hinterrupted ih =>
    obtain ⟨f, later, hfaults, hdue, rfl, hhard, -⟩ := write_failed hwritten
    have hsoft : f.isHard = false := hhard.trans (decide_eq_false (not_not_intro hinterrupted))
    -- the fault is used up, and the same piece is tried again
    have hmet := h.took_withFaults hfaults
    have hsame := hardFaults_withFaults_of_soft hfaults hsoft
    rcases ih hmet.regular with ⟨t'', hput, hrest, hhard⟩ | ⟨g, t'', hput, hhard, hposition, hrest⟩
    · exact Or.inl ⟨t'', hput, hmet.trans hrest, hhard.trans hsame⟩
    · exact Or.inr ⟨g, t'', hput, hsame.symm.trans hhard, hposition, hmet.trans hrest⟩
  | case5 piece t hnonempty err t' hwritten hfinal =>
    have hnonempty : piece ≠ [] := fun heq => hnonempty (List.isEmpty_iff.2 heq)
    obtain ⟨f, later, hfaults, hdue, rfl, hhard, herror⟩ := write_failed hwritten
    rw [← herror]
    exact Or.inr ⟨f, _, rfl, h.stop hfaults (hhard.trans (decide_eq_true hfinal)) hdue hnonempty⟩

/-! ## Transports in step -/

/-- A transport that has taken all of some bytes since the start. -/
structure InStep (start t : FaultyTransport) (bytes : List UInt8) : Prop where
  received : t.received.toList = bytes
  flushResults : t.flushResults = start.flushResults
  flushes : t.flushes = start.flushes
  /-- A write takes at least one byte if no fault is due. -/
  takes : ∀ limit, t.chunk = some limit → 0 < limit
  ascending : t.faults.Pairwise fun f g => f.position ≤ g.position
  /-- No fault that is still to come lies within the bytes. -/
  ahead : ∀ f ∈ t.faults, bytes.length ≤ f.position
  /-- No hard fault was met. -/
  first : t.faults.find? Fault.isHard = start.faults.find? Fault.isHard

/-- A transport that was stopped by the first hard fault since the start, which lies within some
bytes. -/
structure StoppedBy (f : Fault) (start t : FaultyTransport) (bytes : List UInt8) : Prop where
  first : start.faults.find? Fault.isHard = some f
  within : f.position < bytes.length
  received : t.received.toList = bytes.take f.position
  flushResults : t.flushResults = start.flushResults
  flushes : t.flushes = start.flushes

variable {start : FaultyTransport} {bytes : List UInt8}

theorem InStep.size_received (h : InStep start t bytes) : t.received.size = bytes.length := by
  rw [← h.received, Array.length_toList]

theorem InStep.regular (h : InStep start t bytes) : t.Regular where
  takes := h.takes
  ascending := h.ascending
  ahead := by
    intro f hmem
    rw [h.size_received]
    exact h.ahead f hmem

/-- What comes after the fault does not matter. -/
theorem StoppedBy.append {f : Fault} (h : StoppedBy f start t bytes) (piece : List UInt8) :
    StoppedBy f start t (bytes ++ piece) where
  first := h.first
  within := by
    rw [List.length_append]
    exact Nat.lt_add_right _ h.within
  received := by rw [h.received, List.take_append_of_le_length (Nat.le_of_lt h.within)]
  flushResults := h.flushResults
  flushes := h.flushes

/-- A piece is taken as a whole, or the first hard fault of all lies within it and stops the
transport there. -/
theorem writeAll_inStep (h : InStep start t bytes) (piece : List UInt8) :
    (∃ t', writeAll piece t = .ok () t' ∧ InStep start t' (bytes ++ piece)) ∨
      ∃ f t', writeAll piece t = .error f.error t' ∧ StoppedBy f start t' (bytes ++ piece) := by
  rcases h.regular.writeAll piece with
    ⟨t', hput, htook, hhard⟩ | ⟨f, t', hput, hhard, hwithin, htook⟩
  · -- all of the piece was taken: no fault that is left lies within it
    have hreceived : t'.received.toList = bytes ++ piece := by rw [htook.received, h.received]
    refine Or.inl ⟨t', hput, hreceived, htook.flushResults.trans h.flushResults,
      htook.flushes.trans h.flushes, htook.regular.takes, htook.regular.ascending, ?_, ?_⟩
    · intro f hmem
      rw [← hreceived, Array.length_toList]
      exact htook.regular.ahead f hmem
    · rw [← List.head?_filter, ← h.first, ← List.head?_filter]
      exact congrArg List.head? hhard
  · -- the fault is the first of the hard ones, and it lies after all bytes taken before
    have hfirst : t.faults.find? Fault.isHard = some f := by
      rw [← List.head?_filter]
      exact congrArg List.head? hhard
    have hahead := h.ahead f (List.mem_of_find?_eq_some hfirst)
    rw [h.size_received] at hwithin htook
    refine Or.inr ⟨f, t', hput, h.first.symm.trans hfirst, ?_, ?_,
      htook.flushResults.trans h.flushResults, htook.flushes.trans h.flushes⟩
    · rwa [List.length_append]
    · rw [htook.received, h.received, List.take_append, List.take_of_length_le hahead]

/-! ## Flushing -/

/-- How the next flush ends, if not well. -/
def flushError? (t : FaultyTransport) : Option StreamError := t.flushResults.head?.join

/-- The transport after the next flush. -/
def flushed (t : FaultyTransport) : FaultyTransport :=
  { t with flushResults := t.flushResults.tail, flushes := t.flushes + 1 }

/-- Writing does not change how flushes end. -/
theorem InStep.flushError?_eq (h : InStep start t bytes) : t.flushError? = start.flushError? := by
  rw [flushError?, h.flushResults, flushError?]

/-- Writing does not change what the flush after the next one reports. -/
theorem InStep.flushError?_flushed_eq (h : InStep start t bytes) :
    t.flushed.flushError? = start.flushed.flushError? := by
  rw [flushError?, flushed, h.flushResults, flushError?, flushed]

/-- Flushing ends as planned and touches no bytes. -/
theorem flush_eq (t : FaultyTransport) :
    t.flush = match t.flushError? with
      | none => .ok () t.flushed
      | some err => .error err t.flushed := by
  obtain ⟨chunk, faults, flushResults, received, flushes⟩ := t
  cases flushResults with
  | nil => rfl
  | cons result rest => cases result <;> rfl

end FaultyTransport

end ParseMarkup
