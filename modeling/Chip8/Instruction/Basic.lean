/-!
# Instructions

An instruction is an opcode with its operands taken apart.  The type admits operands that no opcode
can hold (a register number above 15, an address above `0xFFF`): they can be written down and
printed, but never decoded.

## What is here

* `ArithmeticOp` — the register to register operations of the `8XYN` family.
* `Instruction` — the instruction set.
-/

namespace Chip8

/-- The `8XYN` operations. -/
inductive ArithmeticOp
  /-- `8XY0`: `VX = VY`. -/
  | assign
  /-- `8XY1`: bitwise or. -/
  | or
  /-- `8XY2`: bitwise and. -/
  | and
  /-- `8XY3`: bitwise exclusive or. -/
  | xor
  /-- `8XY4`: `VX = VX + VY`, the flag is the carry. -/
  | add
  /-- `8XY5`: `VX = VX - VY`, the flag says that `VX` was larger. -/
  | sub
  /-- `8XY6`: shift right by one. -/
  | shiftRight
  /-- `8XY7`: `VX = VY - VX`, the flag says that `VY` was larger. -/
  | subFrom
  /-- `8XYE`: shift left by one. -/
  | shiftLeft
deriving DecidableEq, Repr

/-- A decoded instruction. -/
inductive Instruction
  /-- `0NNN`: a call into the host's own machine code, which does nothing here. -/
  | sys (nnn : UInt16)
  /-- `00E0`: clear the screen. -/
  | clear
  /-- `00EE`: return from a subroutine. -/
  | ret
  /-- `1NNN`: jump. -/
  | jump (nnn : UInt16)
  /-- `2NNN`: call a subroutine. -/
  | call (nnn : UInt16)
  /-- `3XNN`: skip the next instruction if `VX = NN`. -/
  | skipEqual (x : Nat) (nn : UInt8)
  /-- `4XNN`: skip the next instruction if `VX ≠ NN`. -/
  | skipNotEqual (x : Nat) (nn : UInt8)
  /-- `5XY0`: skip the next instruction if `VX = VY`. -/
  | skipEqualRegister (x y : Nat)
  /-- `6XNN`: `VX = NN`. -/
  | load (x : Nat) (nn : UInt8)
  /-- `7XNN`: `VX = VX + NN` without a flag. -/
  | add (x : Nat) (nn : UInt8)
  /-- `8XYN`: register to register arithmetic. -/
  | arithmetic (op : ArithmeticOp) (x y : Nat)
  /-- `9XY0`: skip the next instruction if `VX ≠ VY`. -/
  | skipNotEqualRegister (x y : Nat)
  /-- `ANNN`: `I = NNN`. -/
  | loadIndex (nnn : UInt16)
  /-- `BNNN`: jump to `NNN + V0`. -/
  | jumpOffset (nnn : UInt16)
  /-- `CXNN`: `VX` becomes a random byte masked by `NN`. -/
  | random (x : Nat) (nn : UInt8)
  /-- `DXYN`: draw the `N` rows high sprite at `I` to `(VX, VY)`. -/
  | draw (x y : Nat) (n : UInt8)
  /-- `EX9E`: skip the next instruction if the key in `VX` is pressed. -/
  | skipPressed (x : Nat)
  /-- `EXA1`: skip the next instruction if the key in `VX` is not pressed. -/
  | skipNotPressed (x : Nat)
  /-- `FX07`: `VX` becomes the value of the delay timer. -/
  | readDelay (x : Nat)
  /-- `FX0A`: wait for a key and store it in `VX`. -/
  | awaitKey (x : Nat)
  /-- `FX15`: set the delay timer to `VX`. -/
  | setDelay (x : Nat)
  /-- `FX18`: set the sound timer to `VX`. -/
  | setSound (x : Nat)
  /-- `FX1E`: `I = I + VX` without a flag. -/
  | addIndex (x : Nat)
  /-- `FX29`: `I` becomes the address of the glyph for the digit in `VX`. -/
  | selectGlyph (x : Nat)
  /-- `FX33`: write the three decimal digits of `VX` to `I`, `I + 1` and `I + 2`. -/
  | storeDecimal (x : Nat)
  /-- `FX55`: write `V0` to `VX` to memory from `I` on. -/
  | storeRegisters (x : Nat)
  /-- `FX65`: fill `V0` to `VX` from memory from `I` on. -/
  | fillRegisters (x : Nat)
deriving DecidableEq, Repr

end Chip8
