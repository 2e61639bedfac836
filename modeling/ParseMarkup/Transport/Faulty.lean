import ParseMarkup.Transport.Basic

/-!
# A transport with faults

A byte transport whose faults are laid down beforehand. A write takes at most `chunk` bytes; a
fault lies at a position in the stream of bytes, and the first write that stands there fails
once, after the bytes before it were taken. A piece is put by writing until all of it is taken:
an interrupted write is tried again, and a write that takes nothing is an error.

The module introduces:

* `FaultyTransport` and one write on it, `FaultyTransport.write`;
* `FaultyTransport.writeAll`, which writes a whole piece;
* flushing, which takes the planned results one by one and is never tried again.
-/

namespace ParseMarkup

/-- What a fault does to the write that meets it. -/
inductive Refusal where
  /-- The write takes no byte. -/
  | stall
  /-- The write fails. -/
  | fail (err : StreamError)
  deriving DecidableEq, Repr

/-- A fault in a stream of bytes. -/
structure Fault where
  /-- How many bytes lie before it. -/
  position : Nat
  /-- What it does. -/
  refusal : Refusal
  deriving DecidableEq, Repr

/-- A transport with planned faults. -/
structure FaultyTransport where
  /-- The most bytes that one write takes, if there is such a limit. -/
  chunk : Option Nat := none
  /-- The faults that are still to come, by ascending position. -/
  faults : List Fault := []
  /-- How the next flushes end; after these, flushing succeeds. -/
  flushResults : List (Option StreamError) := []
  /-- The bytes that were taken. -/
  received : Array UInt8 := #[]
  /-- How often it was flushed, failed attempts included. -/
  flushes : Nat := 0
  deriving DecidableEq, Repr

/-- How one write ends. -/
inductive WriteResult where
  /-- So many bytes were taken. -/
  | took (count : Nat)
  /-- The write failed. -/
  | failed (err : StreamError)
  deriving DecidableEq, Repr

/-- What is made of a write that takes no byte of a piece. -/
def StreamError.writeZero : StreamError := ⟨.writeZero, "failed to write whole buffer"⟩

namespace FaultyTransport

/-- `n`, but at most the limit if there is one. -/
def capped (n : Nat) : Option Nat → Nat
  | none => n
  | some limit => min n limit

/-- How many of `length` bytes a write takes if no fault is due and the next one, if any, is
`room` bytes away. -/
def accepted (t : FaultyTransport) (length : Nat) (room : Option Nat) : Nat :=
  capped (capped length t.chunk) room

/-- Take the first `count` bytes of a piece. -/
def take (t : FaultyTransport) (piece : List UInt8) (count : Nat) : FaultyTransport :=
  match t with
  | ⟨chunk, faults, flushResults, received, flushes⟩ =>
    ⟨chunk, faults, flushResults, received ++ piece.take count, flushes⟩

/-- One write of a piece that is not empty. A fault that is due is used up by it. -/
def write (t : FaultyTransport) (piece : List UInt8) : WriteResult × FaultyTransport :=
  match t.faults with
  | [] =>
    let count := t.accepted piece.length none
    (.took count, t.take piece count)
  | fault :: later =>
    if fault.position ≤ t.received.size then
      match fault.refusal with
      | .stall => (.took 0, { t with faults := later })
      | .fail err => (.failed err, { t with faults := later })
    else
      let count := t.accepted piece.length (some (fault.position - t.received.size))
      (.took count, t.take piece count)

theorem faults_take (t : FaultyTransport) (piece : List UInt8) (count : Nat) :
    (t.take piece count).faults = t.faults := rfl

/-- A write either takes bytes and leaves the faults alone, or uses up a fault, or takes nothing
and leaves the faults alone. -/
theorem write_faults_length (t : FaultyTransport) (piece : List UInt8) :
    (t.write piece).2.faults.length ≤ t.faults.length := by
  unfold write
  split
  · simp [faults_take]
  · split
    · split <;> simp [*]
    · simp [faults_take]

/-- A write that fails uses up the fault it failed by. -/
theorem write_faults_length_of_failed {t : FaultyTransport} {piece : List UInt8}
    {err : StreamError} (h : (t.write piece).1 = .failed err) :
    (t.write piece).2.faults.length < t.faults.length := by
  unfold write at h ⊢
  split at h
  · cases h
  · split at h
    · split at h
      · cases h
      · simp [*]
    · cases h

/-- Write until the whole piece is taken. An empty piece needs no write. -/
def writeAll (piece : List UInt8) (t : FaultyTransport) :
    EStateM.Result StreamError FaultyTransport Unit :=
  if piece.isEmpty then .ok () t
  else
    match h : t.write piece with
    | (.took 0, t') => .error .writeZero t'
    | (.took (n + 1), t') => writeAll (piece.drop (n + 1)) t'
    -- the fault is used up, so the write can be tried again
    | (.failed err, t') => if err.kind = .interrupted then writeAll piece t' else .error err t'
termination_by piece.length + t.faults.length
decreasing_by
  · have hfaults := write_faults_length t piece
    have hnonempty : piece ≠ [] := by simpa using ‹¬piece.isEmpty = true›
    have hlength := List.length_pos_iff.2 hnonempty
    rw [h] at hfaults
    simp only [List.length_drop] at hfaults ⊢
    omega
  · have hfailed : (t.write piece).1 = .failed err := by rw [h]
    have hfaults := write_faults_length_of_failed hfailed
    rw [h] at hfaults
    exact Nat.add_lt_add_left hfaults _

@[simp] theorem writeAll_nil (t : FaultyTransport) : writeAll [] t = .ok () t := by
  rw [writeAll]; rfl

/-- Flush: counted in any case, then ended as planned. -/
def flush (t : FaultyTransport) : EStateM.Result StreamError FaultyTransport Unit :=
  match t with
  | ⟨chunk, faults, [], received, flushes⟩ => .ok () ⟨chunk, faults, [], received, flushes + 1⟩
  | ⟨chunk, faults, none :: rest, received, flushes⟩ =>
    .ok () ⟨chunk, faults, rest, received, flushes + 1⟩
  | ⟨chunk, faults, some err :: rest, received, flushes⟩ =>
    .error err ⟨chunk, faults, rest, received, flushes + 1⟩

instance : Transport FaultyTransport where
  put s := writeAll s.toByteArray.data.toList
  flush := flush

/-- The bytes that were taken after the first `count`. -/
def receivedSince (t : FaultyTransport) (count : Nat) : List UInt8 :=
  t.received.toList.drop count

end FaultyTransport

end ParseMarkup
