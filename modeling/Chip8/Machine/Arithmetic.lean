import Chip8.Dialect
import Chip8.Instruction.Basic
import Chip8.Registers

/-!
# Arithmetic

The `8XYN` family: what it computes from two bytes, and how it is written back.

## What is here

* `ArithmeticOp.compute` — the result and the flag, if the operation has one.
* `Registers.arithmetic` — the flag is written last, so it wins where the result goes to `VF` too.
* `decimalDigits` — the three decimal digits of a byte; `decimalDigits_eq_iff` says which those are.
-/

namespace Chip8

/-- A condition as the value of a flag. -/
def flagOf (condition : Bool) : UInt8 := if condition then 1 else 0

theorem flagOf_eq_one_iff {condition : Bool} : flagOf condition = 1 ↔ condition = true := by
  cases condition <;> decide

/-- The byte that a shift reads. -/
def ShiftSource.pick (source : ShiftSource) (vx vy : UInt8) : UInt8 :=
  match source with
  | .vy => vy
  | .vx => vx

/-- The result of an operation on `VX` and `VY`, and its flag.  The flag of a shift is the bit that
falls out of `VX`, whichever register is shifted. -/
def ArithmeticOp.compute (op : ArithmeticOp) (source : ShiftSource) (vx vy : UInt8) :
    UInt8 × Option UInt8 :=
  match op with
  | assign => (vy, none)
  | or => (vx ||| vy, some 0)
  | and => (vx &&& vy, some 0)
  | xor => (vx ^^^ vy, some 0)
  | add => (vx + vy, some (flagOf (256 ≤ vx.toNat + vy.toNat)))
  | sub => (vx - vy, some (flagOf (vy < vx)))
  | shiftRight => (UInt8.ofNat ((source.pick vx vy).toNat / 2), some (UInt8.ofNat (vx.toNat % 2)))
  | subFrom => (vy - vx, some (flagOf (vx < vy)))
  | shiftLeft =>
    (UInt8.ofNat ((source.pick vx vy).toNat * 2), some (UInt8.ofNat (vx.toNat / 128)))

/-- Runs an operation on registers: the result goes to `Vx`, then the flag to `VF`. -/
def Registers.arithmetic (r : Registers) (source : ShiftSource) (op : ArithmeticOp) (x y : Nat) :
    Registers :=
  let computed := op.compute source (r.get x) (r.get y)
  let written := r.set x computed.1
  match computed.2 with
  | none => written
  | some flag => written.setFlag flag

/-- The three decimal digits of a byte. -/
def decimalDigits (b : UInt8) : List UInt8 :=
  [UInt8.ofNat (b.toNat / 100), UInt8.ofNat (b.toNat / 10 % 10), UInt8.ofNat (b.toNat % 10)]

/-- **The digits of a byte** are the bytes below ten that have its value as a decimal number. -/
theorem decimalDigits_eq_iff {b hundreds tens ones : UInt8} :
    decimalDigits b = [hundreds, tens, ones] ↔
      hundreds.toNat < 10 ∧ tens.toNat < 10 ∧ ones.toNat < 10 ∧
        100 * hundreds.toNat + 10 * tens.toNat + ones.toNat = b.toNat := by
  have hb := b.toNat_lt
  simp only [decimalDigits, List.cons.injEq, and_true, ← UInt8.toNat_inj, UInt8.toNat_ofNat']
  omega

end Chip8
