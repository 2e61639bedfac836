import ParseMarkup.Proofs.Stream.Alike
import ParseMarkup.Proofs.Transport.Faulty

/-!
# Interruptions and short writes

How many bytes a single write takes, and where it is interrupted, does not show in what becomes of
whole pieces. Two transports with faults may differ in both and still do alike for ever, as long as
their other faults are the same: also after such a fault, in the middle of a piece.

The module introduces `FaultyTransport.Alike`, that two transports differ in this way only. The main
statement is `FaultyTransport.transportAlike`.
-/

namespace ParseMarkup

namespace FaultyTransport

/-- Two regular transports that have taken the same bytes and differ in nothing but the sizes of
their writes and the interruptions still to come. -/
structure Alike (t t' : FaultyTransport) : Prop where
  regular : t.Regular
  regular' : t'.Regular
  received : t.received = t'.received
  hardFaults : t.hardFaults = t'.hardFaults
  flushResults : t.flushResults = t'.flushResults
  flushes : t.flushes = t'.flushes

/-- Transports that take the same bytes and use up the same hard faults stay alike. -/
theorem Alike.took {t t' u u' : FaultyTransport} (h : Alike t t') {bytes : List UInt8}
    (htook : Took t u bytes) (htook' : Took t' u' bytes) (hhard : u.hardFaults = u'.hardFaults) :
    Alike u u' where
  regular := htook.regular
  regular' := htook'.regular
  received := by
    apply Array.toList_inj.1
    rw [htook.received, htook'.received, h.received]
  hardFaults := hhard
  flushResults := by rw [htook.flushResults, htook'.flushResults, h.flushResults]
  flushes := by rw [htook.flushes, htook'.flushes, h.flushes]

/-- A transport that has taken all of a piece has no hard fault left that lies within it. -/
theorem Took.le_position {t t' : FaultyTransport} {bytes : List UInt8} (h : Took t t' bytes)
    {f : Fault} (hmem : f ∈ t'.hardFaults) : t.received.size + bytes.length ≤ f.position := by
  rw [← h.size_received]
  exact h.regular.ahead f (List.mem_filter.1 hmem).1

/-- Alike transports write a piece alike: both take all of it, or both fail at the same hard fault
with the same bytes taken. -/
theorem Alike.writeAll {t t' : FaultyTransport} (h : Alike t t') (piece : List UInt8) :
    EndAlike Alike (writeAll piece t) (writeAll piece t') := by
  have hsize : t.received.size = t'.received.size := congrArg Array.size h.received
  -- both take the whole piece, or both are stopped by the same fault: it lies within the piece of
  -- the one exactly if it does so of the other
  rcases h.regular.writeAll piece with ⟨u, hput, htook, hhard⟩ | ⟨f, u, hput, hhard, hwithin, htook⟩
  · rcases h.regular'.writeAll piece with
      ⟨u', hput', htook', hhard'⟩ | ⟨f, u', hput', hhard', hwithin, htook'⟩
    · rw [hput, hput']
      exact .ok (h.took htook htook' (by rw [hhard, hhard', h.hardFaults]))
    · have hmem : f ∈ u.hardFaults := by
        rw [hhard, h.hardFaults, hhard']
        exact List.mem_cons_self ..
      have hbehind := htook.le_position hmem
      omega
  · rcases h.regular'.writeAll piece with
      ⟨u', hput', htook', hhard'⟩ | ⟨f', u', hput', hhard', hwithin', htook'⟩
    · have hmem : f ∈ u'.hardFaults := by
        rw [hhard', ← h.hardFaults, hhard]
        exact List.mem_cons_self ..
      have hbehind := htook'.le_position hmem
      omega
    · have hfirst : f :: u.hardFaults = f' :: u'.hardFaults := by
        rw [← hhard, ← hhard', h.hardFaults]
      obtain ⟨rfl, hlater⟩ := List.cons.inj hfirst
      rw [hput, hput']
      rw [hsize] at htook
      exact .error (h.took htook htook' hlater)

/-- A flush is never tried again, and does not look at the faults. -/
theorem Alike.flush {t t' : FaultyTransport} (h : Alike t t') :
    EndAlike Alike t.flush t'.flush := by
  have hflushed : Alike t.flushed t'.flushed := by
    refine ⟨⟨h.regular.takes, h.regular.ascending, h.regular.ahead⟩,
      ⟨h.regular'.takes, h.regular'.ascending, h.regular'.ahead⟩, h.received, h.hardFaults, ?_, ?_⟩
    · exact congrArg List.tail h.flushResults
    · exact congrArg (· + 1) h.flushes
  have hsameEnd : t.flushError? = t'.flushError? := by
    rw [flushError?, h.flushResults, flushError?]
  rw [flush_eq, flush_eq, hsameEnd]
  cases t'.flushError? with
  | none => exact .ok hflushed
  | some err => exact .error hflushed

/-- Transports that differ in the sizes of their writes and in interruptions do alike. -/
theorem transportAlike : TransportAlike Alike where
  put piece _ _ h := h.writeAll (String.toByteArray piece).data.toList
  flush h := h.flush

end FaultyTransport

end ParseMarkup
