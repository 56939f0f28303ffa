/-!
# Dialects

Programs were written for interpreters that disagree on two points: which register a shift reads,
and how the index register moves after a block transfer.  A dialect settles both.

## What is here

* `ShiftSource` and `IndexAdvance` — the two choices.
* `IndexAdvance.amount` — how far the index register moves.
* `Dialect` — a choice of each; the default is the oldest behaviour.
-/

namespace Chip8

/-- The register that `8XY6` and `8XYE` shift. -/
inductive ShiftSource
  /-- `VX` becomes `VY` shifted. -/
  | vy
  /-- `VX` is shifted in place. -/
  | vx
deriving DecidableEq, Repr

instance : Inhabited ShiftSource := ⟨.vy⟩

/-- How the index register moves after `FX55` and `FX65`. -/
inductive IndexAdvance
  /-- Past the last register that was transferred. -/
  | byCount
  /-- By one. -/
  | byOne
  /-- Not at all. -/
  | unchanged
deriving DecidableEq, Repr

instance : Inhabited IndexAdvance := ⟨.byCount⟩

/-- How far the index register moves after the transfer of `V0` to `Vx`; `x` counts modulo 2¹⁶. -/
def IndexAdvance.amount (advance : IndexAdvance) (x : Nat) : UInt16 :=
  match advance with
  | byCount => UInt16.ofNat x + 1
  | byOne => 1
  | unchanged => 0

/-- A choice for each point on which interpreters disagree. -/
structure Dialect where
  shift : ShiftSource := default
  advance : IndexAdvance := default
deriving DecidableEq, Repr

instance : Inhabited Dialect := ⟨{}⟩

end Chip8
