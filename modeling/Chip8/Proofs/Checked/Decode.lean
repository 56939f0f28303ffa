import Chip8.Proofs.Checked.Basic
import Chip8.Proofs.Decoding

/-!
# Checked decoding

`Chip8.Opcode` takes the fields of a word by division and remainder.  A host takes them by masks and
shifts.  Both give the same fields, so the bounds on the fields hold for those of the host as well:
a register number is below `16` because its mask leaves no more than four bits.

## What is here

* `Opcode.maskedKind`, `maskedX`, `maskedY`, `maskedN`, `maskedNN`, `maskedNNN` — the fields by
  masks and shifts.
* `Instruction.checkedDecode`, `Instruction.checkedDecode_eq` — the decode table over these fields.
-/

set_option autoImplicit false

namespace Chip8

open Checked

/-! ## Fields -/

namespace Opcode

/-- The highest nibble. -/
def maskedKind (w : Opcode) : Checked UInt8 := do
  let kind ← shiftRight16 (w.word &&& 0xF000) 12
  return kind.toUInt8

/-- The register index `X` of `TXYN`. -/
def maskedX (w : Opcode) : Checked Nat := do
  let x ← shiftRight16 (w.word &&& 0x0FFF &&& 0xFF00) 8
  return x.toNat

/-- The register index `Y` of `TXYN`. -/
def maskedY (w : Opcode) : Checked Nat := do
  let y ← shiftRight16 (w.word &&& 0x00F0) 4
  return y.toNat

/-- The lowest nibble. -/
def maskedN (w : Opcode) : UInt8 := (w.word &&& 0x000F).toUInt8

/-- The lower byte. -/
def maskedNN (w : Opcode) : UInt8 := (w.word &&& 0x00FF).toUInt8

/-- The lower twelve bits. -/
def maskedNNN (w : Opcode) : UInt16 := w.word &&& 0x0FFF

/-- A mask and a shift by `k` bits take the bits that the shifted mask has. -/
theorem toNat_and_shiftRight (w mask : UInt16) (k : Nat) :
    (w &&& mask).toNat >>> k = (w.toNat >>> k) &&& (mask.toNat >>> k) := by
  rw [UInt16.toNat_and, Nat.shiftRight_and_distrib]

theorem maskedKind_eq (w : Opcode) : w.maskedKind = .ok (UInt8.ofNat w.kind) := by
  have hk := w.kind_lt
  have hand : (w.word &&& 0xF000).toNat >>> 12 = w.kind := by
    rw [toNat_and_shiftRight, Nat.shiftRight_eq_div_pow w.word.toNat]
    exact (Nat.and_two_pow_sub_one_eq_mod _ 4).trans (Nat.mod_eq_of_lt hk)
  rw [maskedKind, shiftRight16_of_lt _ (by decide), hand]
  refine congrArg Except.ok (UInt8.toNat_inj.mp ?_)
  rw [UInt16.toNat_toUInt8, UInt16.toNat_ofNat', UInt8.toNat_ofNat']
  omega

theorem maskedX_eq (w : Opcode) : w.maskedX = .ok w.x := by
  have hx := w.x_lt
  have hand : (w.word &&& 0x0FFF &&& 0xFF00).toNat >>> 8 = w.x := by
    rw [toNat_and_shiftRight, toNat_and_shiftRight, Nat.shiftRight_eq_div_pow w.word.toNat,
      Nat.and_assoc]
    exact Nat.and_two_pow_sub_one_eq_mod _ 4
  rw [maskedX, shiftRight16_of_lt _ (by decide), hand]
  refine congrArg Except.ok ?_
  rw [UInt16.toNat_ofNat']
  omega

theorem maskedY_eq (w : Opcode) : w.maskedY = .ok w.y := by
  have hy := w.y_lt
  have hand : (w.word &&& 0x00F0).toNat >>> 4 = w.y := by
    rw [toNat_and_shiftRight, Nat.shiftRight_eq_div_pow w.word.toNat]
    exact Nat.and_two_pow_sub_one_eq_mod _ 4
  rw [maskedY, shiftRight16_of_lt _ (by decide), hand]
  refine congrArg Except.ok ?_
  rw [UInt16.toNat_ofNat']
  omega

theorem maskedN_eq (w : Opcode) : w.maskedN = UInt8.ofNat w.n := by
  have hand : (w.word &&& 0x000F).toNat = w.n := Nat.and_two_pow_sub_one_eq_mod _ 4
  refine UInt8.toNat_inj.mp ?_
  rw [maskedN, UInt16.toNat_toUInt8, hand, UInt8.toNat_ofNat']

theorem maskedNN_eq (w : Opcode) : w.maskedNN = UInt8.ofNat w.nn := by
  have hand : (w.word &&& 0x00FF).toNat = w.nn := Nat.and_two_pow_sub_one_eq_mod _ 8
  refine UInt8.toNat_inj.mp ?_
  rw [maskedNN, UInt16.toNat_toUInt8, hand, UInt8.toNat_ofNat']

theorem maskedNNN_eq (w : Opcode) : w.maskedNNN = UInt16.ofNat w.nnn := by
  have hnnn := w.nnn_lt
  have hand : (w.word &&& 0x0FFF).toNat = w.nnn := Nat.and_two_pow_sub_one_eq_mod _ 12
  refine UInt16.toNat_inj.mp ?_
  rw [maskedNNN, hand, UInt16.toNat_ofNat']
  omega

end Opcode

/-! ## The table -/

namespace Instruction

/-- The rows of kind `0`, with the address taken by a mask. -/
def maskedSystem (w : Opcode) : Instruction :=
  match w.toNat with
  | 0x00E0 => clear
  | 0x00EE => ret
  | _ => sys w.maskedNNN

/-- **The decode table over masked fields.** -/
def checkedDecode (w : Opcode) : Checked (Option Instruction) := do
  let x ← w.maskedX
  let y ← w.maskedY
  let kind ← w.maskedKind
  return match kind.toNat with
    | 0x0 => some (maskedSystem w)
    | 0x1 => some (jump w.maskedNNN)
    | 0x2 => some (call w.maskedNNN)
    | 0x3 => some (skipEqual x w.maskedNN)
    | 0x4 => some (skipNotEqual x w.maskedNN)
    | 0x5 => if w.maskedN = 0 then some (skipEqualRegister x y) else none
    | 0x6 => some (load x w.maskedNN)
    | 0x7 => some (add x w.maskedNN)
    | 0x8 => (ArithmeticOp.ofNibble? w.maskedN.toNat).map fun op => arithmetic op x y
    | 0x9 => if w.maskedN = 0 then some (skipNotEqualRegister x y) else none
    | 0xA => some (loadIndex w.maskedNNN)
    | 0xB => some (jumpOffset w.maskedNNN)
    | 0xC => some (random x w.maskedNN)
    | 0xD => some (draw x y w.maskedN)
    | 0xE => ofKeyByte? x w.maskedNN.toNat
    | 0xF => ofDeviceByte? x w.maskedNN.toNat
    | _ => none

theorem maskedSystem_eq (w : Opcode) : maskedSystem w = ofSystem w := by
  rw [maskedSystem, Opcode.maskedNNN_eq]
  rfl

/-- **Taking the fields of a word aborts nothing**, and masks give the fields that division and
remainder give. -/
theorem checkedDecode_eq (w : Opcode) : checkedDecode w = .ok (ofOpcode? w) := by
  have hkind := w.kind_lt
  have hk : (UInt8.ofNat w.kind).toNat = w.kind := by
    rw [UInt8.toNat_ofNat']
    omega
  have hzero : UInt8.ofNat w.n = 0 ↔ w.n = 0 := by
    rw [← UInt8.toNat_inj, toNat_n]
    rfl
  simp only [checkedDecode, Opcode.maskedX_eq, Opcode.maskedY_eq, Opcode.maskedKind_eq,
    Opcode.maskedN_eq, Opcode.maskedNN_eq, Opcode.maskedNNN_eq, maskedSystem_eq, toNat_n, toNat_nn,
    ok_bind, hk, hzero, ofOpcode?]
  rfl

end Instruction
end Chip8
