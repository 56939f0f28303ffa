import Chip8.Instruction.Basic
import Chip8.Text.Numeral

/-!
# Assembly

The classic assembly form of an instruction: a mnemonic, then operands set apart by commas.

## What is here

* `Operand` — what can stand behind a mnemonic, with its text.
* `Statement` — a mnemonic with its operands, with its text.
* `Instruction.assembly` — the statement of an instruction.
* `Instruction.text` — the disassembly.
-/

namespace Chip8

open Numeral

/-! ## Operands -/

/-- What can stand behind a mnemonic. -/
inductive Operand
  /-- A data register: `V` and its number. -/
  | register (k : Nat)
  /-- An address, of at least three hexadecimal digits. -/
  | address (nnn : UInt16)
  /-- A byte, of two hexadecimal digits. -/
  | byte (nn : UInt8)
  /-- A number of rows, in decimal. -/
  | count (n : UInt8)
  /-- The index register. -/
  | index
  /-- The memory the index register points to. -/
  | atIndex
  /-- The delay timer. -/
  | delay
  /-- The sound timer. -/
  | sound
  /-- A key press. -/
  | key
  /-- The font. -/
  | font
  /-- Decimal digits. -/
  | decimalDigits
deriving DecidableEq

/-- The text of an operand. -/
def Operand.chars : Operand → List Char
  | register k => 'V' :: hex k
  | address nnn => markedHex 3 nnn.toNat
  | byte nn => markedHex 2 nn.toNat
  | count n => decimal n.toNat
  | index => ['I']
  | atIndex => ['[', 'I', ']']
  | delay => ['D', 'T']
  | sound => ['S', 'T']
  | key => ['K']
  | font => ['F']
  | decimalDigits => ['B']

/-- The text of a list of operands, set apart by a comma and a blank. -/
def Operand.listChars : List Operand → List Char
  | [] => []
  | [o] => o.chars
  | o :: os => o.chars ++ ',' :: ' ' :: listChars os

/-! ## Statements -/

/-- The mnemonics. -/
inductive Mnemonic
  | sys | cls | ret | jp | call | se | sne | ld | add | or | and | xor | sub | shr | subn | shl
  | rnd | drw | skp | sknp
deriving DecidableEq

/-- The text of a mnemonic. -/
def Mnemonic.chars : Mnemonic → List Char
  | sys => ['S', 'Y', 'S']
  | cls => ['C', 'L', 'S']
  | ret => ['R', 'E', 'T']
  | jp => ['J', 'P']
  | call => ['C', 'A', 'L', 'L']
  | se => ['S', 'E']
  | sne => ['S', 'N', 'E']
  | ld => ['L', 'D']
  | add => ['A', 'D', 'D']
  | or => ['O', 'R']
  | and => ['A', 'N', 'D']
  | xor => ['X', 'O', 'R']
  | sub => ['S', 'U', 'B']
  | shr => ['S', 'H', 'R']
  | subn => ['S', 'U', 'B', 'N']
  | shl => ['S', 'H', 'L']
  | rnd => ['R', 'N', 'D']
  | drw => ['D', 'R', 'W']
  | skp => ['S', 'K', 'P']
  | sknp => ['S', 'K', 'N', 'P']

/-- A mnemonic with its operands. -/
structure Statement where
  mnemonic : Mnemonic
  operands : List Operand
deriving DecidableEq

/-- The text of a statement: a blank stands between the mnemonic and its operands, if any. -/
def Statement.chars (s : Statement) : List Char :=
  match s.operands with
  | [] => s.mnemonic.chars
  | os => s.mnemonic.chars ++ ' ' :: Operand.listChars os

/-! ## Instructions -/

/-- The mnemonic of an `8XYN` operation. -/
def ArithmeticOp.mnemonic : ArithmeticOp → Mnemonic
  | assign => .ld
  | or => .or
  | and => .and
  | xor => .xor
  | add => .add
  | sub => .sub
  | shiftRight => .shr
  | subFrom => .subn
  | shiftLeft => .shl

namespace Instruction

/-- The statement an instruction is written as. -/
def assembly : Instruction → Statement
  | sys nnn => ⟨.sys, [.address nnn]⟩
  | clear => ⟨.cls, []⟩
  | ret => ⟨.ret, []⟩
  | jump nnn => ⟨.jp, [.address nnn]⟩
  | call nnn => ⟨.call, [.address nnn]⟩
  | skipEqual x nn => ⟨.se, [.register x, .byte nn]⟩
  | skipNotEqual x nn => ⟨.sne, [.register x, .byte nn]⟩
  | skipEqualRegister x y => ⟨.se, [.register x, .register y]⟩
  | load x nn => ⟨.ld, [.register x, .byte nn]⟩
  | add x nn => ⟨.add, [.register x, .byte nn]⟩
  | arithmetic op x y => ⟨op.mnemonic, [.register x, .register y]⟩
  | skipNotEqualRegister x y => ⟨.sne, [.register x, .register y]⟩
  | loadIndex nnn => ⟨.ld, [.index, .address nnn]⟩
  | jumpOffset nnn => ⟨.jp, [.register 0, .address nnn]⟩
  | random x nn => ⟨.rnd, [.register x, .byte nn]⟩
  | draw x y n => ⟨.drw, [.register x, .register y, .count n]⟩
  | skipPressed x => ⟨.skp, [.register x]⟩
  | skipNotPressed x => ⟨.sknp, [.register x]⟩
  | readDelay x => ⟨.ld, [.register x, .delay]⟩
  | awaitKey x => ⟨.ld, [.register x, .key]⟩
  | setDelay x => ⟨.ld, [.delay, .register x]⟩
  | setSound x => ⟨.ld, [.sound, .register x]⟩
  | addIndex x => ⟨.add, [.index, .register x]⟩
  | selectGlyph x => ⟨.ld, [.font, .register x]⟩
  | storeDecimal x => ⟨.ld, [.decimalDigits, .register x]⟩
  | storeRegisters x => ⟨.ld, [.atIndex, .register x]⟩
  | fillRegisters x => ⟨.ld, [.register x, .atIndex]⟩

/-- **The disassembly** of an instruction. -/
def text (instruction : Instruction) : String := String.ofList instruction.assembly.chars

end Instruction
end Chip8
