import ParseMarkup.Stream.Sink
import ParseMarkup.Transport.Basic

/-!
# Work that ends alike

Two runs of the same work, on two states that may differ, cannot be told apart by their results if
both succeed with the same value or both fail with the same error. What differs between the states
is said by a relation that the work keeps.

The module introduces:

* `EndAlike`: that two runs end alike, in related states;
* `TransportAlike` and `AnswerAlike`: relations of transports, and of sinks, that their operations
  keep.
-/

namespace ParseMarkup

/-- Two results that differ in the states alone, which are related. -/
inductive EndAlike {ε σ σ' α : Type} (R : σ → σ' → Prop) :
    EStateM.Result ε σ α → EStateM.Result ε σ' α → Prop
  /-- Both succeed with the same value. -/
  | ok {a : α} {s : σ} {s' : σ'} (related : R s s') : EndAlike R (.ok a s) (.ok a s')
  /-- Both fail with the same error. -/
  | error {err : ε} {s : σ} {s' : σ'} (related : R s s') : EndAlike R (.error err s) (.error err s')

/-- Work that ends alike may be done one after the other. -/
theorem EndAlike.bind {ε σ σ' α β : Type} {R : σ → σ' → Prop} {first : EStateM ε σ α}
    {first' : EStateM ε σ' α} {next : α → EStateM ε σ β} {next' : α → EStateM ε σ' β} {s : σ}
    {s' : σ'} (hbegins : EndAlike R (first s) (first' s'))
    (hgoesOn : ∀ a {s s'}, R s s' → EndAlike R (next a s) (next' a s')) :
    EndAlike R ((first >>= next) s) ((first' >>= next') s') := by
  simp only [Bind.bind, EStateM.bind]
  generalize first s = result at hbegins ⊢
  generalize first' s' = result' at hbegins ⊢
  -- either both go on from related states, or both stop with the same error
  cases hbegins with
  | ok hrelated => exact hgoesOn _ hrelated
  | error hrelated => exact .error hrelated

/-- Related transports do alike whatever is asked of them, and are related again afterwards. -/
structure TransportAlike {ω ω' : Type} [Transport ω] [Transport ω'] (R : ω → ω' → Prop) : Prop where
  put : ∀ (piece : String) {t : ω} {t' : ω'}, R t t' →
    EndAlike R (Transport.put piece t) (Transport.put piece t')
  flush : ∀ {t : ω} {t' : ω'}, R t t' → EndAlike R (Transport.flush t) (Transport.flush t')

/-- Related sinks answer every call alike and are related again afterwards. -/
def AnswerAlike {σ σ' : Type} [Sink σ] [Sink σ'] (R : σ → σ' → Prop) : Prop :=
  ∀ (e : Event) {s : σ} {s' : σ'}, R s s' → EndAlike R (Sink.call e s) (Sink.call e s')

end ParseMarkup
