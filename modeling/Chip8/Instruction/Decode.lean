import Chip8.Fault
import Chip8.Instruction.Basic

/-!
# Decoding

The decode table.  The highest nibble picks a row; the rows of kind `0`, `8`, `E` and `F` are split
further by the lower bits, and `5XYN` and `9XYN` exist for `N = 0` only.

## What is here

* `ArithmeticOp.ofNibble?` — the sub-table of the `8XYN` family.
* `Instruction.ofOpcode?` — the whole table.
* `Instruction.decode` — the same with the fault that a missing row is reported as.
-/

namespace Chip8

/-- The operation that the lowest nibble of `8XYN` names. -/
def ArithmeticOp.ofNibble? : Nat → Option ArithmeticOp
  | 0x0 => some .assign
  | 0x1 => some .or
  | 0x2 => some .and
  | 0x3 => some .xor
  | 0x4 => some .add
  | 0x5 => some .sub
  | 0x6 => some .shiftRight
  | 0x7 => some .subFrom
  | 0xE => some .shiftLeft
  | _ => none

namespace Instruction

/-- The rows of kind `0`: two exact words, all others are calls into the host. -/
def ofSystem (w : Opcode) : Instruction :=
  match w.toNat with
  | 0x00E0 => clear
  | 0x00EE => ret
  | _ => sys (UInt16.ofNat w.nnn)

/-- The rows of kind `E`, by the lower byte. -/
def ofKeyByte? (x : Nat) : Nat → Option Instruction
  | 0x9E => some (skipPressed x)
  | 0xA1 => some (skipNotPressed x)
  | _ => none

/-- The rows of kind `F`, by the lower byte. -/
def ofDeviceByte? (x : Nat) : Nat → Option Instruction
  | 0x07 => some (readDelay x)
  | 0x0A => some (awaitKey x)
  | 0x15 => some (setDelay x)
  | 0x18 => some (setSound x)
  | 0x1E => some (addIndex x)
  | 0x29 => some (selectGlyph x)
  | 0x33 => some (storeDecimal x)
  | 0x55 => some (storeRegisters x)
  | 0x65 => some (fillRegisters x)
  | _ => none

/-- **The decode table**: the instruction an opcode stands for, if any. -/
def ofOpcode? (w : Opcode) : Option Instruction :=
  match w.kind with
  | 0x0 => some (ofSystem w)
  | 0x1 => some (jump (UInt16.ofNat w.nnn))
  | 0x2 => some (call (UInt16.ofNat w.nnn))
  | 0x3 => some (skipEqual w.x (UInt8.ofNat w.nn))
  | 0x4 => some (skipNotEqual w.x (UInt8.ofNat w.nn))
  | 0x5 => if w.n = 0 then some (skipEqualRegister w.x w.y) else none
  | 0x6 => some (load w.x (UInt8.ofNat w.nn))
  | 0x7 => some (add w.x (UInt8.ofNat w.nn))
  | 0x8 => (ArithmeticOp.ofNibble? w.n).map fun op => arithmetic op w.x w.y
  | 0x9 => if w.n = 0 then some (skipNotEqualRegister w.x w.y) else none
  | 0xA => some (loadIndex (UInt16.ofNat w.nnn))
  | 0xB => some (jumpOffset (UInt16.ofNat w.nnn))
  | 0xC => some (random w.x (UInt8.ofNat w.nn))
  | 0xD => some (draw w.x w.y (UInt8.ofNat w.n))
  | 0xE => ofKeyByte? w.x w.nn
  | 0xF => ofDeviceByte? w.x w.nn
  | _ => none

/-- The instruction an opcode stands for; an opcode without one is a fault. -/
def decode (w : Opcode) : Except Fault Instruction :=
  match ofOpcode? w with
  | some instruction => .ok instruction
  | none => .error (.invalidOpcode w)

theorem decode_eq_ok_iff {w : Opcode} {instruction : Instruction} :
    decode w = .ok instruction ↔ ofOpcode? w = some instruction := by
  cases h : ofOpcode? w <;> simp [decode, h]

theorem decode_eq_error_iff {w : Opcode} {f : Fault} :
    decode w = .error f ↔ ofOpcode? w = none ∧ f = .invalidOpcode w := by
  cases h : ofOpcode? w <;> simp [decode, h, eq_comm]

end Instruction
end Chip8
