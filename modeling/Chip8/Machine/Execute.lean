import Chip8.Machine.Arithmetic
import Chip8.Machine.Basic

/-!
# Execution

What each instruction does.  The program counter still points to the instruction while it runs; the
result says where to go next and what the host should know.  An instruction that fails keeps what
it did before it failed.

## What is here

* `Signal` — what the host should know after a cycle.
* `Verdict` — the result of an instruction.
* `Machine.execute` — the instruction set.
-/

namespace Chip8

/-- What the host should know after a cycle. -/
inductive Signal
  /-- Nothing. -/
  | proceed
  /-- The program waits for a key. -/
  | awaitKey
  /-- The screen may have changed. -/
  | redraw
deriving DecidableEq

/-- The result of an instruction: a step of the program counter and a signal, or a fault. -/
abbrev Verdict := Except Fault (Step × Signal)

namespace Machine

/-- The address behind the current instruction. -/
def following (m : Machine) : UInt16 := m.pc + UInt16.ofNat Opcode.size

/-- The instruction is done and the next one follows. -/
def goOn (m : Machine) : Outcome Machine Verdict := ⟨m, .ok (.next, .proceed), []⟩

/-- The instruction is done and picks its own step. -/
def goTo (m : Machine) (step : Step) : Outcome Machine Verdict := ⟨m, .ok (step, .proceed), []⟩

/-- Leaves the innermost subroutine. -/
def leave (m : Machine) : Outcome Machine Verdict :=
  match m.memory.pop with
  | .error f => ⟨m, .error f, []⟩
  | .ok (address, memory) =>
    ⟨{ m with memory }, .ok (.jump address, .proceed), [.returned address]⟩

/-- Puts the lowest pressed key into a register, or asks for a key and tries again. -/
def takeKey (m : Machine) (x : Nat) : Outcome Machine Verdict :=
  match m.keypad.lowest? with
  | some code => goOn { m with v := m.v.set x code }
  | none => ⟨m, .ok (.again, .awaitKey), []⟩

/-- Draws the sprite at the index register; `VF` tells whether a lit pixel went dark.  Rows behind
the end of memory are missing, which is a fault after the others are drawn. -/
def drawSprite (m : Machine) (x y n : Nat) : Outcome Machine Verdict :=
  let sprite := m.memory.readBlock m.i.toNat n
  let drawn := m.screen.plot (m.v.get x).toNat (m.v.get y).toNat sprite.1
  ⟨{ m with screen := drawn.1, v := m.v.setFlag (flagOf drawn.2.1) },
    (drawn.2.2.bind fun _ => sprite.2).map fun _ => (.next, .redraw), []⟩

/-- Writes bytes from the index register on. -/
def storeBytes (m : Machine) (bytes : List UInt8) : Machine × Except Fault Unit :=
  let stored := m.memory.writeBlock m.i.toNat bytes
  ({ m with memory := stored.1 }, stored.2)

/-- Fills the first `n` registers from the index register on. -/
def fillBytes (m : Machine) (n : Nat) : Machine × Except Fault Unit :=
  let block := m.memory.readBlock m.i.toNat n
  ({ m with v := m.v.fill block.1 }, block.2)

/-- Moves the index register after the transfer of `V0` to `Vx`. -/
def advanceIndex (m : Machine) (x : Nat) : Machine :=
  { m with i := m.i + m.dialect.advance.amount x }

/-- Goes on with `after` once a transfer is complete; one that failed ends the instruction. -/
def afterTransfer (transfer : Machine × Except Fault Unit) (after : Machine → Machine) :
    Outcome Machine Verdict :=
  match transfer.2 with
  | .error f => ⟨transfer.1, .error f, []⟩
  | .ok () => goOn (after transfer.1)

/-- **The instruction set.** -/
def execute (m : Machine) : Instruction → Outcome Machine Verdict
  | .sys _ => m.goOn
  | .clear => ⟨{ m with screen := .dark }, .ok (.next, .redraw), []⟩
  | .ret => m.leave
  | .jump nnn => m.goTo (.jump nnn)
  | .call nnn => goTo { m with memory := m.memory.push m.following } (.jump nnn)
  | .skipEqual x nn => m.goTo (.skipIf (m.v.get x == nn))
  | .skipNotEqual x nn => m.goTo (.skipIf (m.v.get x != nn))
  | .skipEqualRegister x y => m.goTo (.skipIf (m.v.get x == m.v.get y))
  | .load x nn => goOn { m with v := m.v.set x nn }
  | .add x nn => goOn { m with v := m.v.set x (m.v.get x + nn) }
  | .arithmetic op x y => goOn { m with v := m.v.arithmetic m.dialect.shift op x y }
  | .skipNotEqualRegister x y => m.goTo (.skipIf (m.v.get x != m.v.get y))
  | .loadIndex nnn => goOn { m with i := nnn }
  | .jumpOffset nnn => m.goTo (.jump (nnn + (m.v.get 0).toUInt16))
  | .random x nn =>
    goOn { m with v := m.v.set x (m.random.draw.1 &&& nn), random := m.random.draw.2 }
  | .draw x y n => m.drawSprite x y n.toNat
  | .skipPressed x => m.goTo (.skipIf (m.keypad.isPressed (m.v.get x)))
  | .skipNotPressed x => m.goTo (.skipIf (!m.keypad.isPressed (m.v.get x)))
  | .readDelay x => goOn { m with v := m.v.set x m.delay.value }
  | .awaitKey x => m.takeKey x
  | .setDelay x => goOn { m with delay := m.delay.set (m.v.get x) }
  | .setSound x => goOn { m with sound := m.sound.set (m.v.get x) }
  | .addIndex x => goOn { m with i := m.i + (m.v.get x).toUInt16 }
  | .selectGlyph x => goOn { m with i := Font.glyphAddress (m.v.get x) }
  | .storeDecimal x => afterTransfer (m.storeBytes (decimalDigits (m.v.get x))) id
  | .storeRegisters x => afterTransfer (m.storeBytes (m.v.take (x + 1))) (advanceIndex · x)
  | .fillRegisters x => afterTransfer (m.fillBytes (x + 1)) (advanceIndex · x)

end Machine
end Chip8
