import Chip8.Opcode
import Chip8.Text.Numeral

/-!
# Faults

Everything that can go wrong, as causes with the values that were involved, and their wording.

## What is here

* `Fault` — the causes.
* `Fault.message` — the sentence a cause is reported with.
* `Fault.area`, `Fault.cycleMessage` — the part of the machine a cause belongs to, and the sentence
  that names it when a whole cycle of the machine fails.
-/

namespace Chip8

/-- A cause of failure. -/
inductive Fault
  /-- No instruction has this opcode. -/
  | invalidOpcode (opcode : Opcode)
  /-- A return without a call. -/
  | stackEmpty
  /-- There is no byte at `address` in a memory of `size` bytes. -/
  | addressOutOfBounds (address size : Nat)
  /-- `length` bytes from `offset` on do not fit into `capacity` bytes. -/
  | romTooLarge (offset length capacity : Nat)
  /-- There is no pixel `index` on a screen of `count` pixels. -/
  | pixelOutOfBounds (index count : Nat)
deriving DecidableEq

/-- The parts of the machine that faults are sorted by. -/
inductive Fault.Area
  | opcode
  | stack
  | memory
  | display
deriving DecidableEq

namespace Fault

open Numeral

/-- The part of the machine a cause belongs to. -/
def area : Fault → Area
  | invalidOpcode _ => .opcode
  | stackEmpty => .stack
  | addressOutOfBounds _ _ => .memory
  | romTooLarge _ _ _ => .memory
  | pixelOutOfBounds _ _ => .display

/-- The sentence a cause is reported with. -/
def message : Fault → String
  | invalidOpcode w => "An unsupported opcode was used " ++ markedHexString 4 w.toNat ++ "."
  | stackEmpty => "Stack is empty!"
  | addressOutOfBounds address size =>
    "Address " ++ markedHexString 4 address ++ " is out of bounds, the memory is "
      ++ decimalString size ++ " bytes long"
  | romTooLarge offset length capacity =>
    "A rom of " ++ decimalString length ++ " bytes does not fit at offset "
      ++ markedHexString 4 offset ++ " into " ++ decimalString capacity ++ " bytes"
  | pixelOutOfBounds index count =>
    "Pixel " ++ decimalString index ++ " is out of bounds, the display has "
      ++ decimalString count ++ " pixels"

/-- How a failing cycle introduces a cause of this area. -/
def Area.introduction : Area → String
  | opcode => "Invalid opcode state"
  | stack => "Invalid stack state"
  | memory => "Invalid memory access"
  | display => "Invalid display access"

/-- The sentence a failing cycle is reported with: the area, then the cause in quotes. -/
def cycleMessage (f : Fault) : String :=
  f.area.introduction ++ " '" ++ f.message ++ "'."

end Fault
end Chip8
