import Chip8.Machine.Execute
import Chip8.Proofs.Checked.Basic
import Chip8.Proofs.Drawing

/-!
# Checked loops

The instructions that touch memory run in loops: storing and filling go register by register, and
drawing goes row by row and within a row pixel by pixel.  Each pass computes an address or the place
of a pixel, with sums that may not fit, and reads or writes by index.  Here the loops are written
down pass by pass, in the order in which a host runs them, and each is shown to abort nothing and to
come to what the total definition says.

The sums stay small: an index register and a row or register number are below `0x10010`, and a
coordinate and a row or column number are below `0x110`.

## What is here

* `Machine.checkedStore`, `Machine.checkedFill` — the block transfers.
* `Machine.plotColumn`, `Machine.plotRow`, `Machine.checkedDraw` — drawing.
* `checkedStore_eq`, `checkedFill_eq`, `checkedDraw_eq` — they come to `storeBytes`, `fillBytes` and
  `drawSprite`.
-/

set_option autoImplicit false

namespace Chip8

open Checked

namespace Registers

/-- Sets `VF` if a condition holds. -/
def raiseIf (r : Registers) (condition : Bool) : Registers :=
  if condition then r.setFlag 1 else r

/-- Of two writes to the flag register the last one stays. -/
theorem setFlag_setFlag (r : Registers) (a b : UInt8) :
    (r.setFlag a).setFlag b = r.setFlag b := by
  refine ext_get fun k _ => ?_
  simp only [setFlag, get_set]
  split <;> rfl

theorem raiseIf_raiseIf (r : Registers) (a b : Bool) :
    (r.raiseIf a).raiseIf b = r.raiseIf (a || b) := by
  cases a <;> cases b <;> simp [raiseIf, setFlag_setFlag]

/-- A cleared flag that is set on a condition tells the condition. -/
theorem raiseIf_setFlag_zero (r : Registers) (condition : Bool) :
    (r.setFlag 0).raiseIf condition = r.setFlag (flagOf condition) := by
  cases condition <;> simp [raiseIf, flagOf, setFlag_setFlag]

end Registers

/-- The mask of a column finds the pixel in that column. -/
theorem Sprite.and_mask_eq_zero_iff (row : UInt8) {column : Nat} (h : column < 8) :
    row &&& UInt8.ofNat ((0x80 : UInt8).toNat >>> column) = 0 ↔ covers row column = false := by
  have hmask : ∀ c < 8, (UInt8.ofNat ((0x80 : UInt8).toNat >>> c)).toNat = 2 ^ (7 - c) := by
    decide
  rw [← UInt8.toNat_inj, UInt8.toNat_and, hmask column h, covers]
  constructor
  · intro hzero
    have hbit := congrArg (Nat.testBit · (7 - column)) hzero
    simpa using hbit
  · intro hbit
    refine Nat.eq_of_testBit_eq fun j => ?_
    rw [Nat.testBit_and, Nat.testBit_two_pow]
    by_cases hj : 7 - column = j
    · rw [← hj, hbit]
      simp
    · simp [hj]

namespace Machine

variable (p : Platform)

/-! ## Storing -/

/-- One pass of storing: a byte goes to its offset. -/
def storeByte (start : Nat) (m : Machine) (entry : UInt8 × Nat) :
    Checked (Machine × Except Fault Unit) := do
  let address ← p.add start entry.2
  match m.memory.write address entry.1 with
  | .error f => return (m, .error f)
  | .ok memory => return ({ m with memory }, .ok ())

/-- Writes bytes from the index register on. -/
def checkedStore (m : Machine) (bytes : List UInt8) : Checked (Machine × Except Fault Unit) :=
  loop (storeByte p m.i.toNat) m bytes.zipIdx

theorem loop_storeByte {start : Nat} (bytes : List UInt8) (k : Nat)
    (h : start + k + bytes.length < 0x100000000) (m : Machine) :
    loop (storeByte p start) m (bytes.zipIdx k) =
      .ok ({ m with memory := (m.memory.writeBlock (start + k) bytes).1 },
        (m.memory.writeBlock (start + k) bytes).2) := by
  induction bytes generalizing k m with
  | nil => rfl
  | cons b bytes ih =>
    rw [List.length_cons] at h
    have hadd : p.add start k = .ok (start + k) := p.add_of_lt (by omega)
    rw [List.zipIdx_cons, Memory.writeBlock]
    rcases hw : m.memory.write (start + k) b with f | memory
    · refine loop_cons_of_error ?_ _
      rw [storeByte, hadd, ok_bind, hw]
      rfl
    · have hbody : storeByte p start m (b, k) = .ok ({ m with memory }, .ok ()) := by
        rw [storeByte, hadd, ok_bind, hw]
        rfl
      rw [loop_cons_of_ok hbody]
      exact ih (k + 1) (by omega) { m with memory }

/-- **Storing aborts nothing.** -/
theorem checkedStore_eq (m : Machine) {bytes : List UInt8} (h : bytes.length ≤ 16) :
    m.checkedStore p bytes = .ok (m.storeBytes bytes) := by
  have hi := m.i.toNat_lt
  exact loop_storeByte p bytes 0 (by omega) m

/-! ## Filling -/

/-- One pass of filling: a register takes the byte at its number. -/
def fillRegister (start : Nat) (m : Machine) (k : Nat) : Checked (Machine × Except Fault Unit) := do
  let address ← p.add start k
  match m.memory.read address with
  | .error f => return (m, .error f)
  | .ok b =>
    let v ← m.v.put k b
    return ({ m with v }, .ok ())

/-- Fills the first `n` registers from the index register on. -/
def checkedFill (m : Machine) (n : Nat) : Checked (Machine × Except Fault Unit) :=
  loop (fillRegister p m.i.toNat) m (List.range' 0 n)

theorem loop_fillRegister {start : Nat} (n k : Nat) (hk : k + n ≤ 16) (h : start + 16 < 0x100000000)
    (m : Machine) :
    loop (fillRegister p start) m (List.range' k n) =
      .ok ({ m with v := m.v.fillFrom k (m.memory.readBlock (start + k) n).1 },
        (m.memory.readBlock (start + k) n).2) := by
  induction n generalizing k m with
  | zero => rfl
  | succ n ih =>
    have hadd : p.add start k = .ok (start + k) := p.add_of_lt (by omega)
    rw [List.range'_succ, Memory.readBlock]
    rcases hr : m.memory.read (start + k) with f | b
    · refine loop_cons_of_error ?_ _
      rw [fillRegister, hadd, ok_bind, hr]
      rfl
    · have hbody : fillRegister p start m k = .ok ({ m with v := m.v.set k b }, .ok ()) := by
        have hput := m.v.put_of_lt (show k < 16 by omega) b
        simp only [fillRegister, hadd, ok_bind, hr, hput]
        rfl
      rw [loop_cons_of_ok hbody]
      exact ih (k + 1) (by omega) { m with v := m.v.set k b }

/-- **Filling aborts nothing.** -/
theorem checkedFill_eq (m : Machine) {n : Nat} (h : n ≤ 16) :
    m.checkedFill p n = .ok (m.fillBytes n) := by
  have hi := m.i.toNat_lt
  exact loop_fillRegister p n 0 (by omega) (by omega) m

/-! ## Drawing -/

/-- The place of a pixel on the screen. -/
def checkedIndex (x y : Nat) : Checked Nat := do
  let row ← p.mul (y % Screen.height) Screen.width
  p.add row (x % Screen.width)

/-- One pass over a row: the pixel in a column, if it is part of the sprite.  A pixel that goes dark
sets `VF`. -/
def plotColumn (x y row : Nat) (bits : UInt8) (m : Machine) (column : Nat) :
    Checked (Machine × Except Fault Unit) := do
  let mask ← shiftRight8 0x80 column
  if bits &&& mask = 0 then return (m, .ok ())
  else
    let pixel ← checkedIndex p (← p.add x column) (← p.add y row)
    match m.screen.isOn pixel with
    | .error f => return (m, .error f)
    | .ok on =>
      let v ← if on then m.v.put Registers.flag 1 else pure m.v
      match m.screen.toggle pixel with
      | .error f => return ({ m with v }, .error f)
      | .ok screen => return ({ m with v, screen }, .ok ())

/-- One pass over a sprite: a row is read and plotted column by column. -/
def plotRow (start x y : Nat) (m : Machine) (row : Nat) :
    Checked (Machine × Except Fault Unit) := do
  let address ← p.add start row
  match m.memory.read address with
  | .error f => return (m, .error f)
  | .ok bits => loop (plotColumn p x y row bits) m (List.range' 0 Sprite.rowWidth)

/-- Draws the sprite at the index register. -/
def checkedDraw (m : Machine) (x y n : Nat) : Checked (Outcome Machine Verdict) := do
  let vx ← m.v.peek x
  let vy ← m.v.peek y
  let v ← m.v.put Registers.flag 0
  let drawn ← loop (plotRow p m.i.toNat vx.toNat vy.toNat) { m with v } (List.range' 0 n)
  return ⟨drawn.1, drawn.2.map fun _ => (.next, .redraw), []⟩

/-- The machine after some of its pixels are flipped; `VF` is set if one of them was on. -/
def flipped (m : Machine) (cells : List (Fin 2048)) : Machine :=
  { m with
    screen := (m.screen.flipAll cells).1
    v := m.v.raiseIf (m.screen.flipAll cells).2 }

theorem flipped_nil (m : Machine) : m.flipped [] = m := rfl

theorem flipped_singleton (m : Machine) (i : Fin 2048) :
    m.flipped [i] =
      { m with screen := m.screen.flip i, v := m.v.raiseIf (m.screen.lit i) } := by
  simp only [flipped, Screen.flipAll, Bool.or_false]

theorem flipped_append (m : Machine) (cells more : List (Fin 2048)) :
    m.flipped (cells ++ more) = (m.flipped cells).flipped more := by
  simp only [flipped, Screen.flipAll_append, Registers.raiseIf_raiseIf]

theorem checkedIndex_eq (x y : Nat) : checkedIndex p x y = .ok (Screen.index x y) := by
  have hy : y % 32 < 32 := Nat.mod_lt y (by decide)
  have hx : x % 64 < 64 := Nat.mod_lt x (by decide)
  rw [checkedIndex, Screen.index, Screen.height, Screen.width, p.mul_of_lt (by omega), ok_bind,
    p.add_of_lt (by omega)]

variable {x y : Nat}

theorem plotColumn_eq {row column : Nat} (hx : x < 256) (hy : y + row < 0x100000000)
    (hc : column < 8) (bits : UInt8) (m : Machine) :
    plotColumn p x y row bits m column =
      .ok (m.flipped (if Sprite.covers bits column then
        [⟨Screen.index (x + column) (y + row), Screen.index_lt ..⟩] else []), .ok ()) := by
  rw [plotColumn, shiftRight8_of_lt _ hc, ok_bind]
  cases hcover : Sprite.covers bits column with
  | false =>
    rw [if_pos ((Sprite.and_mask_eq_zero_iff bits hc).mpr hcover), if_neg Bool.false_ne_true,
      flipped_nil]
    rfl
  | true =>
    have hmask := mt (Sprite.and_mask_eq_zero_iff bits hc).mp (by simp [hcover])
    have hput := m.v.put_of_lt (show Registers.flag < 16 by decide) 1
    have hon := m.screen.isOn_val ⟨Screen.index (x + column) (y + row), Screen.index_lt ..⟩
    have htoggle := m.screen.toggle_val ⟨Screen.index (x + column) (y + row), Screen.index_lt ..⟩
    rw [if_neg hmask, if_pos rfl, p.add_of_lt (by omega), ok_bind, p.add_of_lt hy, ok_bind,
      checkedIndex_eq, ok_bind, flipped_singleton]
    simp only [hon, htoggle, hput, ok_bind]
    split
    · next hlit => rw [hlit]; rfl
    · next hdark => rw [Bool.eq_false_iff.mpr hdark]; rfl

/-- A row is plotted pixel by pixel. -/
theorem loop_plotColumn {row : Nat} (hx : x < 256) (hy : y + row < 0x100000000) (bits : UInt8)
    {columns : List Nat} (hcs : ∀ c ∈ columns, c < 8) (m : Machine) :
    loop (plotColumn p x y row bits) m columns =
      .ok (m.flipped ((columns.filter (Sprite.covers bits)).map fun column =>
        ⟨Screen.index (x + column) (y + row), Screen.index_lt ..⟩), .ok ()) := by
  induction columns generalizing m with
  | nil => rfl
  | cons c columns ih =>
    rw [List.forall_mem_cons] at hcs
    rw [loop_cons_of_ok (plotColumn_eq p hx hy hcs.1 bits m), ih hcs.2, ← flipped_append]
    cases hcover : Sprite.covers bits c with
    | false => rw [List.filter_cons_of_neg (by simp [hcover])]; rfl
    | true => rw [List.filter_cons_of_pos hcover]; rfl

/-- A sprite is plotted row by row, up to the first that is missing. -/
theorem loop_plotRow {start : Nat} (hx : x < 256) (n k : Nat) (hs : start + k + n < 0x100000000)
    (hy : y + k + n < 0x100000000) (m : Machine) :
    loop (plotRow p start x y) m (List.range' k n) =
      .ok (m.flipped (Sprite.cells x (y + k) (m.memory.readBlock (start + k) n).1),
        (m.memory.readBlock (start + k) n).2) := by
  induction n generalizing k m with
  | zero => rfl
  | succ n ih =>
    have hadd : p.add start k = .ok (start + k) := p.add_of_lt (by omega)
    rw [List.range'_succ, Memory.readBlock]
    rcases hr : m.memory.read (start + k) with f | bits
    · refine loop_cons_of_error ?_ _
      rw [plotRow, hadd, ok_bind, hr]
      rfl
    · have hbody : plotRow p start x y m k =
          .ok (m.flipped (Sprite.rowCells x (y + k) bits), .ok ()) := by
        rw [plotRow, hadd, ok_bind, hr, Sprite.rowCells, List.range_eq_range']
        exact loop_plotColumn p hx (by omega) bits (by decide) m
      rw [loop_cons_of_ok hbody, ih (k + 1) (by omega) (by omega), ← flipped_append]
      rfl

/-- **Drawing aborts nothing.** -/
theorem checkedDraw_eq (m : Machine) {n : Nat} (hx : x < 16) (hy : y < 16) (hn : n < 16) :
    m.checkedDraw p x y n = .ok (m.drawSprite x y n) := by
  have hi := m.i.toNat_lt
  have hvy := (m.v.get y).toNat_lt
  rw [checkedDraw, m.v.peek_of_lt hx, ok_bind, m.v.peek_of_lt hy, ok_bind,
    m.v.put_of_lt (by decide), ok_bind,
    loop_plotRow p (m.v.get x).toNat_lt n 0 (by omega) (by omega), ok_bind, drawSprite,
    Screen.plot_eq_draw, ← Registers.raiseIf_setFlag_zero]
  rfl

end Machine
end Chip8
