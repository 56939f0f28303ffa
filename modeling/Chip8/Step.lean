import Chip8.Opcode

/-!
# Steps of the program counter

What an instruction asks of the program counter, seen from the address behind the instruction.

## What is here

* `Step` — the four steps; `Step.skipIf` picks one by a condition.
* `Step.target` — where a step leads to.
-/

namespace Chip8

/-- A step of the program counter. -/
inductive Step
  /-- Go on with the following instruction. -/
  | next
  /-- Leave the following instruction out. -/
  | skip
  /-- Run the same instruction again. -/
  | again
  /-- Go to an address. -/
  | jump (target : UInt16)
deriving DecidableEq

namespace Step

/-- Skips if the condition holds. -/
def skipIf (condition : Bool) : Step := if condition then skip else next

/-- Where a step leads to from `following`, the address behind the instruction; it wraps around at
16 bits. -/
def target (following : UInt16) : Step → UInt16
  | next => following
  | skip => following + UInt16.ofNat Opcode.size
  | again => following - UInt16.ofNat Opcode.size
  | jump address => address

end Step
end Chip8
