import Chip8.Fault

/-!
# Run control

What decides whether a tick of a runner runs a cycle: whether the host paused it, how many single
cycles it asked for since, and whether a fault halted it.

## What is here

* `RunControl` — the three together.
* `RunControl.takeCycle` — the decision, which uses up a step while paused.
* `RunControl.pause`, `RunControl.resume`, `RunControl.step`, `RunControl.halt` — what changes it.
-/

namespace Chip8

/-- What decides whether a tick runs a cycle. -/
structure RunControl where
  paused : Bool := false
  /-- The cycles that were asked for while paused and have not run yet. -/
  steps : Nat := 0
  /-- The fault that halted the runner. -/
  fault : Option Fault := none
deriving DecidableEq

namespace RunControl

/-- Whether a tick may run a cycle; while paused this uses up a step. -/
def takeCycle (c : RunControl) : Bool × RunControl :=
  if c.fault.isSome then (false, c)
  else if !c.paused then (true, c)
  else if 0 < c.steps then (true, { c with steps := c.steps - 1 })
  else (false, c)

/-- No cycles from now on. -/
def pause (c : RunControl) : RunControl := { c with paused := true }

/-- Cycles again from now on; steps that are still pending are dropped. -/
def resume (c : RunControl) : RunControl := { c with paused := false, steps := 0 }

/-- Asks for a single cycle, which counts only while paused. -/
def step (c : RunControl) : RunControl := if c.paused then { c with steps := c.steps + 1 } else c

/-- Halts for good. -/
def halt (c : RunControl) (f : Fault) : RunControl := { c with fault := some f }

end RunControl

end Chip8
