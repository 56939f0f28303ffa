import Chip8.Record

/-!
# Outcomes

Operations that report what they do leave three things behind: a new state, a result, and the
records made on the way.

## What is here

* `Outcome` — the three together.
* `Outcome.mapState`, `Outcome.mapResult` — the same outcome seen from a larger whole.
* `Outcome.andThen` — two operations in a row; the records keep their order.
-/

namespace Chip8

/-- What an operation leaves behind: the new state, its result and the records it made. -/
structure Outcome (σ α : Type) where
  state : σ
  result : α
  log : List Record := []

namespace Outcome

variable {σ τ α β : Type}

/-- The same outcome seen as part of a larger state. -/
def mapState (o : Outcome σ α) (f : σ → τ) : Outcome τ α := ⟨f o.state, o.result, o.log⟩

/-- The same outcome with another reading of its result. -/
def mapResult (o : Outcome σ α) (f : α → β) : Outcome σ β := ⟨o.state, f o.result, o.log⟩

/-- A second operation on the state that the first one left; its records come after those of the
first. -/
def andThen (o : Outcome σ α) (next : σ → Outcome σ β) : Outcome σ β :=
  let second := next o.state
  ⟨second.state, second.result, o.log ++ second.log⟩

end Outcome
end Chip8
