import Chip8.Proofs.Cycle.Frame

/-!
# The arithmetic of registers

The `8XYN` family computes with bytes.  What it should come to is said in the arithmetic of integers,
where nothing is cut off: a sum and its carry are the two digits of a number in base 256, a difference
is taken modulo 256 and the flag says that it is positive, and a shift moves one bit out of a byte.
The two operands are those from before the instruction, whichever registers they are in, and the flag
is written last.

## What is here

* `ArithmeticOp.Agrees`, `ArithmeticOp.agrees_compute` — the result and the flag of each operation.
* `Agrees.shiftRight_inPlace`, `Agrees.shiftLeft_inPlace` — a shift in place loses nothing.
* `Registers.get_arithmetic_result`, `Registers.get_arithmetic_flag`,
  `Registers.get_arithmetic_other` — the registers after an operation.
* `Machine.arithmetic_exact` — all together, for any two registers.
-/

set_option autoImplicit false

namespace Chip8

theorem toNat_flagOf (p : Prop) [Decidable p] : (flagOf p).toNat = if p then 1 else 0 := by
  by_cases h : p
  · rw [decide_eq_true h, if_pos h]
    rfl
  · rw [decide_eq_false h, if_neg h]
    rfl

/-! ## What an operation computes -/

namespace ArithmeticOp

/-- **What integer arithmetic asks of an operation** on the bytes `a` and `b`: its result `r` and its
flag, if it has one.  The byte that a shift reads is `s`. -/
def Agrees (op : ArithmeticOp) (a b s r : UInt8) (f : Option UInt8) : Prop :=
  match op with
  | assign => r = b ∧ f = none
  | or => (∀ k, r.toNat.testBit k = (a.toNat.testBit k || b.toNat.testBit k)) ∧ f = some 0
  | and => (∀ k, r.toNat.testBit k = (a.toNat.testBit k && b.toNat.testBit k)) ∧ f = some 0
  | xor => (∀ k, r.toNat.testBit k = (a.toNat.testBit k ^^ b.toNat.testBit k)) ∧ f = some 0
  | add => ∃ carry, f = some carry ∧ 256 * carry.toNat + r.toNat = a.toNat + b.toNat
  | sub =>
    (r.toNat : Int) = ((a.toNat : Int) - b.toNat) % 256 ∧
      f = some (flagOf (0 < (a.toNat : Int) - b.toNat))
  | subFrom =>
    (r.toNat : Int) = ((b.toNat : Int) - a.toNat) % 256 ∧
      f = some (flagOf (0 < (b.toNat : Int) - a.toNat))
  | shiftRight =>
    s.toNat = 2 * r.toNat + s.toNat % 2 ∧ ∃ bit, f = some bit ∧ bit.toNat = a.toNat % 2
  | shiftLeft => r.toNat = 2 * s.toNat % 256 ∧ f = some (flagOf (128 ≤ a.toNat))

theorem toNat_sub_eq_emod (a b : UInt8) :
    ((a - b).toNat : Int) = ((a.toNat : Int) - b.toNat) % 256 := by
  have ha := a.toNat_lt
  have hb := b.toNat_lt
  rw [UInt8.toNat_sub]
  omega

/-- One byte is larger than another if the difference is positive. -/
theorem flagOf_lt_eq (a b : UInt8) : flagOf (b < a) = flagOf (0 < (a.toNat : Int) - b.toNat) := by
  have hlt : b < a ↔ 0 < (a.toNat : Int) - b.toNat := by
    rw [UInt8.lt_iff_toNat_lt]
    omega
  simp only [hlt]

/-- **Every operation agrees with the integers.** -/
theorem agrees_compute (op : ArithmeticOp) (source : ShiftSource) (a b : UInt8) :
    op.Agrees a b (source.pick a b) (op.compute source a b).1 (op.compute source a b).2 := by
  have ha := a.toNat_lt
  have hb := b.toNat_lt
  have hs := (source.pick a b).toNat_lt
  cases op with
  | assign => exact ⟨rfl, rfl⟩
  | or => exact ⟨fun k => by rw [compute, UInt8.toNat_or, Nat.testBit_or], rfl⟩
  | and => exact ⟨fun k => by rw [compute, UInt8.toNat_and, Nat.testBit_and], rfl⟩
  | xor => exact ⟨fun k => by rw [compute, UInt8.toNat_xor, Nat.testBit_xor], rfl⟩
  | add =>
    refine ⟨_, rfl, ?_⟩
    rw [compute, UInt8.toNat_add, toNat_flagOf]
    split <;> omega
  | sub => exact ⟨toNat_sub_eq_emod a b, congrArg some (flagOf_lt_eq a b)⟩
  | subFrom => exact ⟨toNat_sub_eq_emod b a, congrArg some (flagOf_lt_eq b a)⟩
  | shiftRight =>
    refine ⟨?_, _, rfl, ?_⟩
    · rw [compute, UInt8.toNat_ofNat']
      omega
    · rw [UInt8.toNat_ofNat']
      omega
  | shiftLeft =>
    refine ⟨?_, congrArg some ?_⟩
    · rw [compute, UInt8.toNat_ofNat', Nat.mul_comm]
    · rw [← UInt8.toNat_inj, toNat_flagOf, UInt8.toNat_ofNat']
      split <;> omega

variable {a b r : UInt8} {f : Option UInt8}

/-- A byte shifted right in place is in the result and the flag. -/
theorem Agrees.shiftRight_inPlace (h : shiftRight.Agrees a b a r f) :
    ∃ bit, f = some bit ∧ 2 * r.toNat + bit.toNat = a.toNat := by
  obtain ⟨hresult, bit, hf, hbit⟩ := h
  exact ⟨bit, hf, by omega⟩

/-- A byte shifted left in place is in the flag and the result. -/
theorem Agrees.shiftLeft_inPlace (h : shiftLeft.Agrees a b a r f) :
    ∃ bit, f = some bit ∧ 256 * bit.toNat + r.toNat = 2 * a.toNat := by
  obtain ⟨hresult, hf⟩ := h
  have ha := a.toNat_lt
  refine ⟨_, hf, ?_⟩
  rw [toNat_flagOf]
  split <;> omega

end ArithmeticOp

/-! ## Where it is written -/

namespace Registers

variable {r : Registers} {source : ShiftSource} {op : ArithmeticOp} {x y k : Nat}

/-- Where no flag goes, nothing but the result is written. -/
theorem get_arithmetic_of_not_flag
    (h : k ≠ flag ∨ (op.compute source (r.get x) (r.get y)).2 = none) :
    (r.arithmetic source op x y).get k =
      (r.set x (op.compute source (r.get x) (r.get y)).1).get k := by
  rw [arithmetic]
  cases hflag : (op.compute source (r.get x) (r.get y)).2 with
  | none => rfl
  | some bit =>
    have hne : k ≠ flag := h.resolve_right (by rw [hflag]; simp)
    exact get_setFlag_of_ne _ bit hne

/-- **The result goes to `VX`**, unless a flag takes its place. -/
theorem get_arithmetic_result (hx : x < 16)
    (h : x ≠ flag ∨ (op.compute source (r.get x) (r.get y)).2 = none) :
    (r.arithmetic source op x y).get x = (op.compute source (r.get x) (r.get y)).1 := by
  rw [get_arithmetic_of_not_flag h, get_set, if_pos ⟨rfl, hx⟩]

/-- **The flag goes to `VF`**, if there is one. -/
theorem get_arithmetic_flag {bit : UInt8}
    (h : (op.compute source (r.get x) (r.get y)).2 = some bit) :
    (r.arithmetic source op x y).get flag = bit := by
  rw [arithmetic, h]
  exact get_setFlag _ bit

/-- **Other registers stay.** -/
theorem get_arithmetic_other (hx : k ≠ x)
    (h : k ≠ flag ∨ (op.compute source (r.get x) (r.get y)).2 = none) :
    (r.arithmetic source op x y).get k = r.get k := by
  rw [get_arithmetic_of_not_flag h, get_set, if_neg fun h => hx h.1]

end Registers

namespace Machine

/-- **The `8XYN` family is exact**, whichever registers the operands are in.  Let `a` and `b` be what
`VX` and `VY` hold before, and `s` the one of them that the dialect lets shifts read.  The instruction
computes the result and the flag that `ArithmeticOp.Agrees` asks for.  Afterwards `VX` holds the
result, unless it is `VF` and there is a flag; `VF` holds the flag, if there is one; and no other
register has changed.  So a byte that is shifted in place can be told from what is in the two registers
afterwards. -/
theorem arithmetic_exact (m : Machine) (op : ArithmeticOp) {x : Nat} (y : Nat) (hx : x < 16) :
    let a := m.v.get x
    let b := m.v.get y
    let s := if m.dialect.shift = .vy then b else a
    let o := m.perform (.arithmetic op x y)
    let v := o.state.v
    ∃ r f, op.Agrees a b s r f ∧ o.result = .ok .proceed ∧
      (x ≠ Registers.flag ∨ f = none → v.get x = r) ∧
      (∀ bit, f = some bit → v.get Registers.flag = bit) ∧
      (∀ k, k ≠ x → k ≠ Registers.flag ∨ f = none → v.get k = m.v.get k) ∧
      (m.dialect.shift = .vx → x ≠ Registers.flag →
        (op = .shiftRight → 2 * (v.get x).toNat + (v.get Registers.flag).toNat = a.toNat) ∧
        (op = .shiftLeft →
          256 * (v.get Registers.flag).toNat + (v.get x).toNat = 2 * a.toNat)) := by
  intro a b s o v
  have hs : s = m.dialect.shift.pick a b := by
    simp only [s]
    cases m.dialect.shift <;> rfl
  have hagrees := hs ▸ op.agrees_compute m.dialect.shift a b
  have hresult (h : x ≠ Registers.flag ∨ (op.compute m.dialect.shift a b).2 = none) :
      v.get x = (op.compute m.dialect.shift a b).1 := Registers.get_arithmetic_result hx h
  have hflag (bit : UInt8) (h : (op.compute m.dialect.shift a b).2 = some bit) :
      v.get Registers.flag = bit := Registers.get_arithmetic_flag h
  refine ⟨_, _, hagrees, rfl, hresult, hflag,
    fun k hk h => Registers.get_arithmetic_other hk h, fun hsource hne => ⟨?right, ?left⟩⟩
  case right =>
    rintro rfl
    have hin : s = a := if_neg (by simp [hsource])
    obtain ⟨bit, hbit, hlaw⟩ := (hin ▸ hagrees).shiftRight_inPlace
    rw [hresult (.inl hne), hflag bit hbit, hlaw]
  case left =>
    rintro rfl
    have hin : s = a := if_neg (by simp [hsource])
    obtain ⟨bit, hbit, hlaw⟩ := (hin ▸ hagrees).shiftLeft_inPlace
    rw [hresult (.inl hne), hflag bit hbit, hlaw]

/-- A machine that shifts in place. -/
def shifting : Machine :=
  { new { shift := .vx } default none with v := (Registers.zero.set 3 0xC1).set 15 0x80 }

theorem arithmetic_exact_shifting :
    let shifted := (shifting.perform (.arithmetic .shiftLeft 3 15)).state.v
    let doubled := (shifting.perform (.arithmetic .add 15 15)).state.v
    256 * (shifted.get Registers.flag).toNat + (shifted.get 3).toNat = 2 * 0xC1 ∧
      doubled.get Registers.flag = 1 := by
  intro shifted doubled
  constructor
  · obtain ⟨r, f, -, -, -, -, -, hinPlace⟩ :=
      arithmetic_exact shifting .shiftLeft 15 (show 3 < 16 by decide)
    exact (hinPlace rfl (by decide)).2 rfl
  · obtain ⟨r, f, ⟨carry, hcarry, hsum⟩, -, -, hflag, -, -⟩ :=
      arithmetic_exact shifting .add 15 (show 15 < 16 by decide)
    -- both operands are `VF`, and the carry takes the place of their sum
    have hoperands : (shifting.v.get 15).toNat + (shifting.v.get 15).toNat = 256 := by
      decide +kernel
    have hr := r.toNat_lt
    rw [show doubled.get Registers.flag = carry from hflag carry hcarry, ← UInt8.toNat_inj]
    change carry.toNat = 1
    omega

end Machine
end Chip8
