import Chip8.Proofs.Checked.Decode
import Chip8.Proofs.Checked.Loops
import Chip8.Proofs.Cycle.Basic

/-!
# Checked execution

The instruction set once more, with every access to a register, every slice, every sum, product and
shift checked.  An instruction could abort the program: `V16` does not exist, and an address with
more than twelve bits and a byte need not fit into a word.  A decoded instruction never does, since
its operands are bounded by the fields they came from (`Instruction.Fits`), and then the checked
execution comes to `Machine.execute`.

So no program can abort its host, however it came about: `checkedCycle_eq` holds of every machine
and of every word that stands at its program counter.

## What is here

* `ArithmeticOp.checkedCompute`, `Registers.checkedArithmetic` — the `8XYN` family.
* `Font.checkedAddress` — the address of a glyph.
* `IndexAdvance.checkedAmount`, `Machine.afterChecked` — what comes after a transfer.
* `Machine.checkedExecute`, `Machine.checkedExecute_eq` — the instruction set.
* `Machine.checkedCycle`, `Machine.checkedCycle_eq` — a whole cycle.
-/

set_option autoImplicit false

namespace Chip8

open Checked

/-! ## Arithmetic -/

/-- The result of an operation and its flag, with the amounts of shifts checked. -/
def ArithmeticOp.checkedCompute (op : ArithmeticOp) (source : ShiftSource) (vx vy : UInt8) :
    Checked (UInt8 × Option UInt8) :=
  match op with
  | shiftRight => do
    let result ← shiftRight8 (source.pick vx vy) 1
    return (result, some (vx &&& 1))
  | shiftLeft => do
    let result ← shiftLeft8 (source.pick vx vy) 1
    let significant ← shiftLeft8 1 7
    let flag ← shiftRight8 (vx &&& significant) 7
    return (result, some flag)
  | _ => return op.compute source vx vy

theorem ArithmeticOp.checkedCompute_eq (op : ArithmeticOp) (source : ShiftSource) (vx vy : UInt8) :
    op.checkedCompute source vx vy = .ok (op.compute source vx vy) := by
  cases op with
  | shiftRight =>
    have hflag : vx &&& 1 = UInt8.ofNat (vx.toNat % 2) := by
      refine UInt8.toNat_inj.mp ?_
      rw [UInt8.toNat_and, UInt8.toNat_ofNat', show (1 : UInt8).toNat = 2 ^ 1 - 1 from rfl,
        Nat.and_two_pow_sub_one_eq_mod]
      omega
    rw [checkedCompute, shiftRight8_of_lt _ (by decide), ok_bind, hflag]
    rfl
  | shiftLeft =>
    have hlt := vx.toNat_lt
    have hflag :
        (vx &&& UInt8.ofNat ((1 : UInt8).toNat <<< 7)).toNat >>> 7 = vx.toNat / 128 := by
      rw [UInt8.toNat_and, Nat.shiftRight_and_distrib, Nat.shiftRight_eq_div_pow vx.toNat]
      exact (Nat.and_two_pow_sub_one_eq_mod _ 1).trans (Nat.mod_eq_of_lt (by omega))
    have hresult : (source.pick vx vy).toNat <<< 1 = (source.pick vx vy).toNat * 2 :=
      Nat.shiftLeft_eq _ 1
    rw [checkedCompute, shiftLeft8_of_lt _ (by decide), ok_bind, shiftLeft8_of_lt _ (by decide),
      ok_bind, shiftRight8_of_lt _ (by decide), ok_bind, hflag, hresult]
    rfl
  | _ => rfl

/-- Runs an operation on registers. -/
def Registers.checkedArithmetic (r : Registers) (source : ShiftSource) (op : ArithmeticOp)
    (x y : Nat) : Checked Registers := do
  let vx ← r.peek x
  let vy ← r.peek y
  let computed ← op.checkedCompute source vx vy
  let written ← r.put x computed.1
  match computed.2 with
  | none => return written
  | some b => written.put flag b

theorem Registers.checkedArithmetic_eq (r : Registers) (source : ShiftSource) (op : ArithmeticOp)
    {x y : Nat} (hx : x < 16) (hy : y < 16) :
    r.checkedArithmetic source op x y = .ok (r.arithmetic source op x y) := by
  rw [checkedArithmetic, r.peek_of_lt hx, ok_bind, r.peek_of_lt hy, ok_bind,
    op.checkedCompute_eq, ok_bind, r.put_of_lt hx, ok_bind, arithmetic]
  rcases (op.compute source (r.get x) (r.get y)).2 with - | b
  · rfl
  · exact put_of_lt _ (show flag < 16 by decide) b

/-! ## Glyphs -/

/-- The address of the glyph of a digit, computed in words. -/
def Font.checkedAddress (digit : UInt8) : Checked UInt16 := do
  let offset ← mul16 digit.toUInt16 (UInt16.ofNat glyphSize)
  add16 (UInt16.ofNat location) offset

theorem Font.checkedAddress_eq (digit : UInt8) :
    checkedAddress digit = .ok (glyphAddress digit) := by
  have hb := digit.toNat_lt
  have hsize : (UInt16.ofNat glyphSize).toNat = 5 := rfl
  have hlocation : (UInt16.ofNat location).toNat = 0 := rfl
  have hoffset : (digit.toUInt16 * UInt16.ofNat glyphSize).toNat = digit.toNat * 5 := by
    rw [UInt16.toNat_mul, UInt8.toNat_toUInt16, hsize]
    omega
  rw [checkedAddress, mul16_of_lt (by rw [UInt8.toNat_toUInt16, hsize]; omega), ok_bind,
    add16_of_lt (by rw [hoffset, hlocation]; omega)]
  refine congrArg Except.ok (UInt16.toNat_inj.mp ?_)
  rw [UInt16.toNat_add, hoffset, hlocation, toNat_glyphAddress, location, glyphSize]
  omega

/-! ## After a transfer -/

/-- How far the index register moves after the transfer of `V0` to `Vx`. -/
def IndexAdvance.checkedAmount (advance : IndexAdvance) (x : Nat) : Checked UInt16 :=
  match advance with
  | byCount => add16 (UInt16.ofNat x) 1
  | byOne => return 1
  | unchanged => return 0

theorem IndexAdvance.checkedAmount_eq (advance : IndexAdvance) {x : Nat} (hx : x < 16) :
    advance.checkedAmount x = .ok (advance.amount x) := by
  cases advance with
  | byCount =>
    refine add16_of_lt ?_
    rw [UInt16.toNat_ofNat', UInt16.toNat_one]
    omega
  | byOne => rfl
  | unchanged => rfl

namespace Machine

variable (p : Platform)

/-- Moves the index register after the transfer of `V0` to `Vx`. -/
def checkedAdvance (m : Machine) (x : Nat) : Checked Machine := do
  let amount ← m.dialect.advance.checkedAmount x
  return { m with i := m.i + amount }

theorem checkedAdvance_eq (m : Machine) {x : Nat} (hx : x < 16) :
    m.checkedAdvance x = .ok (m.advanceIndex x) := by
  rw [checkedAdvance, IndexAdvance.checkedAmount_eq _ hx]
  rfl

/-- Goes on with `after` once a transfer is complete; one that failed ends the instruction. -/
def afterChecked (transfer : Machine × Except Fault Unit) (after : Machine → Checked Machine) :
    Checked (Outcome Machine Verdict) :=
  match transfer.2 with
  | .error f => return ⟨transfer.1, .error f, []⟩
  | .ok () => do
    let m ← after transfer.1
    return m.goOn

theorem afterChecked_eq {transfer : Machine × Except Fault Unit} {after : Machine → Checked Machine}
    {next : Machine → Machine} (h : ∀ m, after m = .ok (next m)) :
    afterChecked transfer after = .ok (afterTransfer transfer next) := by
  rw [afterChecked, afterTransfer]
  rcases transfer.2 with f | ⟨⟩
  · rfl
  · rw [h]
    rfl

/-! ## The instruction set -/

/-- **The instruction set**, with every partial operation checked. -/
def checkedExecute (m : Machine) : Instruction → Checked (Outcome Machine Verdict)
  | .sys _ => return m.goOn
  | .clear => return ⟨{ m with screen := .dark }, .ok (.next, .redraw), []⟩
  | .ret => return m.leave
  | .jump nnn => return m.goTo (.jump nnn)
  | .call nnn => return goTo { m with memory := m.memory.push m.following } (.jump nnn)
  | .skipEqual x nn => do
    let vx ← m.v.peek x
    return m.goTo (.skipIf (vx == nn))
  | .skipNotEqual x nn => do
    let vx ← m.v.peek x
    return m.goTo (.skipIf (vx != nn))
  | .skipEqualRegister x y => do
    let vx ← m.v.peek x
    let vy ← m.v.peek y
    return m.goTo (.skipIf (vx == vy))
  | .load x nn => do
    let v ← m.v.put x nn
    return goOn { m with v }
  | .add x nn => do
    let vx ← m.v.peek x
    let v ← m.v.put x (vx + nn)
    return goOn { m with v }
  | .arithmetic op x y => do
    let v ← m.v.checkedArithmetic m.dialect.shift op x y
    return goOn { m with v }
  | .skipNotEqualRegister x y => do
    let vx ← m.v.peek x
    let vy ← m.v.peek y
    return m.goTo (.skipIf (vx != vy))
  | .loadIndex nnn => return goOn { m with i := nnn }
  | .jumpOffset nnn => do
    let v0 ← m.v.peek 0
    let target ← add16 nnn v0.toUInt16
    return m.goTo (.jump target)
  | .random x nn => do
    let v ← m.v.put x (m.random.draw.1 &&& nn)
    return goOn { m with v, random := m.random.draw.2 }
  | .draw x y n => m.checkedDraw p x y n.toNat
  | .skipPressed x => do
    let vx ← m.v.peek x
    return m.goTo (.skipIf (m.keypad.isPressed vx))
  | .skipNotPressed x => do
    let vx ← m.v.peek x
    return m.goTo (.skipIf (!m.keypad.isPressed vx))
  | .readDelay x => do
    let v ← m.v.put x m.delay.value
    return goOn { m with v }
  | .awaitKey x =>
    match m.keypad.lowest? with
    | some code => do
      let v ← m.v.put x code
      return goOn { m with v }
    | none => return ⟨m, .ok (.again, .awaitKey), []⟩
  | .setDelay x => do
    let vx ← m.v.peek x
    return goOn { m with delay := m.delay.set vx }
  | .setSound x => do
    let vx ← m.v.peek x
    return goOn { m with sound := m.sound.set vx }
  | .addIndex x => do
    let vx ← m.v.peek x
    return goOn { m with i := m.i + vx.toUInt16 }
  | .selectGlyph x => do
    let vx ← m.v.peek x
    let i ← Font.checkedAddress vx
    return goOn { m with i }
  | .storeDecimal x => do
    let vx ← m.v.peek x
    let stored ← m.checkedStore p (decimalDigits vx)
    afterChecked stored fun m => return m
  | .storeRegisters x => do
    let bytes ← m.v.upTo x
    let stored ← m.checkedStore p bytes
    afterChecked stored (checkedAdvance · x)
  | .fillRegisters x => do
    let filled ← m.checkedFill p (x + 1)
    afterChecked filled (checkedAdvance · x)

/-- **No instruction with fitting operands aborts**, and the checks change nothing. -/
theorem checkedExecute_eq (m : Machine) {i : Instruction} (hi : i.Fits) :
    m.checkedExecute p i = .ok (m.execute i) := by
  cases i with
  | sys | clear | ret | jump | call | loadIndex => rfl
  | skipEqual x nn | skipNotEqual x nn | skipPressed x | skipNotPressed x | setDelay x
  | setSound x | addIndex x =>
    rw [checkedExecute, m.v.peek_of_lt hi]
    rfl
  | load x nn | random x nn | readDelay x =>
    rw [checkedExecute, m.v.put_of_lt hi]
    rfl
  | skipEqualRegister x y | skipNotEqualRegister x y =>
    rw [checkedExecute, m.v.peek_of_lt hi.1, ok_bind, m.v.peek_of_lt hi.2]
    rfl
  | add x nn =>
    rw [checkedExecute, m.v.peek_of_lt hi, ok_bind, m.v.put_of_lt hi]
    rfl
  | arithmetic op x y =>
    rw [checkedExecute, m.v.checkedArithmetic_eq _ _ hi.1 hi.2]
    rfl
  | jumpOffset nnn =>
    have hn : nnn.toNat < 4096 := hi
    have hb := (m.v.get 0).toNat_lt
    have hadd : add16 nnn (m.v.get 0).toUInt16 = .ok (nnn + (m.v.get 0).toUInt16) :=
      add16_of_lt (by rw [UInt8.toNat_toUInt16]; omega)
    rw [checkedExecute, m.v.peek_of_lt (by decide), ok_bind, hadd]
    rfl
  | draw x y n => exact m.checkedDraw_eq p hi.1 hi.2.1 hi.2.2
  | awaitKey x =>
    have hx : x < 16 := hi
    change _ = Except.ok (m.takeKey x)
    rw [checkedExecute, takeKey]
    cases m.keypad.lowest? with
    | none => rfl
    | some code =>
      simp only [m.v.put_of_lt hx]
      rfl
  | selectGlyph x =>
    rw [checkedExecute, m.v.peek_of_lt hi, ok_bind, Font.checkedAddress_eq]
    rfl
  | storeDecimal x =>
    have hlen : (decimalDigits (m.v.get x)).length ≤ 16 := show 3 ≤ 16 by decide
    rw [checkedExecute, m.v.peek_of_lt hi, ok_bind, m.checkedStore_eq p hlen, ok_bind]
    exact afterChecked_eq fun _ => rfl
  | storeRegisters x =>
    have hx : x < 16 := hi
    have hlen : (m.v.take (x + 1)).length ≤ 16 := by
      rw [m.v.length_take hx]
      exact hx
    rw [checkedExecute, m.v.upTo_of_lt hx, ok_bind, m.checkedStore_eq p hlen, ok_bind]
    exact afterChecked_eq fun m => m.checkedAdvance_eq hx
  | fillRegisters x =>
    have hx : x < 16 := hi
    rw [checkedExecute, m.checkedFill_eq p hx, ok_bind]
    exact afterChecked_eq fun m => m.checkedAdvance_eq hx

-- operands that no opcode has room for do abort
example (m : Machine) : m.checkedExecute .bits64 (.load 16 0) = .error (.index 16 16) := rfl

/-! ## Cycles -/

/-- **One cycle**, with every partial operation checked. -/
def checkedCycle (m : Machine) : Checked (Outcome Machine (Except Fault Signal)) :=
  match m.fetch with
  | .error f => return ⟨m, .error f, []⟩
  | .ok w => do
    let decoded ← Instruction.checkedDecode w
    match decoded with
    | none => return ⟨m.fetched w, .error (.invalidOpcode w), []⟩
    | some i => do
      let done ← (m.fetched w).checkedExecute p i
      return (m.fetched w).conclude i done

/-- **No cycle aborts**, whatever brought the machine to its state and whatever word stands at the
program counter: with every access, slice, sum, product and shift checked, the cycle still comes to
its result, on every platform. -/
theorem checkedCycle_eq (m : Machine) : m.checkedCycle p = .ok m.cycle := by
  rw [checkedCycle, cycle]
  cases m.fetch with
  | error f => rfl
  | ok w =>
    simp only [Instruction.checkedDecode_eq, ok_bind, Instruction.decode]
    cases hi : Instruction.ofOpcode? w with
    | none => rfl
    | some i =>
      simp only [checkedExecute_eq p _ (Instruction.code_of_ofOpcode? hi).1, ok_bind]
      rfl

end Machine
end Chip8
