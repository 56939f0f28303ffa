import Chip8.Instruction.Assembly
import Chip8.Fault

/-!
# Log records

What the library reports while it works, as events with the values that were involved, and their
wording.

## What is here

* `Record` — the events.
* `Record.level`, `Record.message` — how serious an event is, and its sentence.
-/

namespace Chip8

open Numeral

/-- An event worth reporting. -/
inductive Record
  /-- `count` bytes were copied to `offset`. -/
  | loaded (count offset : Nat)
  /-- A key that the keypad does not have was pressed or released. -/
  | unmappedKey (code : UInt8)
  /-- The instruction at `pc` was decoded and is about to run. -/
  | running (pc : UInt16) (opcode : Opcode) (instruction : Instruction)
  /-- A subroutine returned to `target`. -/
  | returned (target : UInt16)
  /-- A beep, where there is nothing to beep with. -/
  | beep
  /-- A run loop was started. -/
  | runnerStarted
  /-- A run loop was stopped. -/
  | runnerStopped
  /-- A run loop halted at `pc`. -/
  | halted (pc : UInt16) (opcode : Opcode) (fault : Fault)
  /-- A thread was found to have panicked. -/
  | threadPanicked
deriving DecidableEq

/-- How serious an event is. -/
inductive Level
  | trace
  | debug
  | error
deriving DecidableEq

namespace Record

/-- How serious an event is. -/
def level : Record → Level
  | running _ _ _ => .trace
  | beep => .trace
  | loaded _ _ => .debug
  | unmappedKey _ => .debug
  | returned _ => .debug
  | runnerStarted => .debug
  | runnerStopped => .debug
  | halted _ _ _ => .error
  | threadPanicked => .error

/-- The sentence an event is reported with. -/
def message : Record → String
  | loaded count offset =>
    "loaded " ++ decimalString count ++ " bytes at " ++ markedHexString 4 offset
  | unmappedKey code => "ignoring unmapped key " ++ markedHexString 1 code.toNat
  | running pc opcode instruction =>
    markedHexString 4 pc.toNat ++ ": " ++ markedHexString 4 opcode.toNat ++ " "
      ++ instruction.text
  | returned target => "return to " ++ markedHexString 4 target.toNat
  | beep => "beep"
  | runnerStarted => "runner started"
  | runnerStopped => "runner stopped"
  | halted pc opcode fault =>
    "halting at " ++ markedHexString 4 pc.toNat ++ " (" ++ markedHexString 4 opcode.toNat ++ "): "
      ++ fault.cycleMessage
  | threadPanicked => "The worker thread paniced before shutdown."

end Record

end Chip8
