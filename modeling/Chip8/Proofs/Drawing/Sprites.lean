import Chip8.Proofs.Cycle.Failures
import Chip8.Proofs.Drawing.Pixels

/-!
# Sprites on the screen

What `DXYN` does, without its loops.  The sprite lies in memory from the index register on, and its
upper left end goes to `(VX, VY)`.  Each pixel it covers changes, no other does, and `VF` tells
whether one of them was lit.  The coordinates are those of before the instruction, also if one of
them is held by `VF`, and nothing else of the machine changes but the program counter.

## What is here

* `Machine.covers`, `Machine.Collides` — the pixels that a sprite covers, and whether one is lit.
* `Machine.perform_draw` — a sprite whose rows are in memory is drawn.
* `Machine.lit_drawn`, `Machine.drawn_snd` — the screen after that, pixel by pixel, and the flag.
* `Machine.sprite_drawn` — all that `DXYN` does.
-/

set_option autoImplicit false

namespace Chip8
namespace Machine

open Screen (cell distance)

variable {m : Machine} {x y : Nat} {n : UInt8}

/-- The rows of the sprite at the index register. -/
def sprite (m : Machine) (n : Nat) : List UInt8 := (m.memory.readBlock m.i.toNat n).1

/-- **Whether the sprite of `DXYN` covers the pixel in a column and a row**: with `k` and `j` the
distances of the row from `VY` and of the column from `VX`, modulo the size of the screen, `k` is
below `N`, `j` is below `8`, and bit `7 - j` of the byte at `I + k` is set. -/
def covers (m : Machine) (x y n : Nat) (c : Fin 64) (r : Fin 32) : Bool :=
  let k := distance (m.v.get y).toNat r
  let j := distance (m.v.get x).toNat c
  decide (k < n) && decide (j < 8) &&
    (m.memory.bytes[m.i.toNat + k]?.getD 0).toNat.testBit (7 - j)

/-- A pixel that the sprite of `DXYN` covers is lit. -/
def Collides (m : Machine) (x y n : Nat) : Prop :=
  ∃ c r, m.covers x y n c r = true ∧ m.screen.lit (cell c r) = true

instance (m : Machine) (x y n : Nat) : Decidable (m.Collides x y n) :=
  inferInstanceAs (Decidable (∃ _ _, _ ∧ _))

/-! ## The rows in memory -/

theorem length_sprite_le (m : Machine) (n : Nat) : (m.sprite n).length ≤ n := by
  rw [sprite, Memory.readBlock_fst]
  exact List.length_take_le _ _

theorem getElem?_sprite (m : Machine) (n k : Nat) :
    (m.sprite n)[k]? = if k < n then m.memory.bytes[m.i.toNat + k]? else none := by
  rw [sprite, Memory.readBlock_fst, List.getElem?_take, List.getElem?_drop, Memory.toList,
    Vector.getElem?_toList]

/-- The covered pixels, from the bits of the rows. -/
theorem shows_sprite (m : Machine) (x y n : Nat) (c : Fin 64) (r : Fin 32) :
    Sprite.shows (m.v.get x).toNat (m.v.get y).toNat (m.sprite n) c r = m.covers x y n c r := by
  rw [Sprite.shows, covers, getElem?_sprite]
  by_cases hk : distance (m.v.get y).toNat r < n
  · simp only [hk, if_true, decide_true, Bool.true_and]
    -- a missing byte has no pixels, and neither has a zero
    cases m.memory.bytes[m.i.toNat + distance (m.v.get y).toNat r]? with
    | none => simp
    | some row => rfl
  · simp [hk]

/-! ## Drawing -/

/-- What the sprite of `DXYN` makes of the screen, and whether a lit pixel went dark. -/
def drawn (m : Machine) (x y n : Nat) : Screen × Bool :=
  m.screen.draw (m.v.get x).toNat (m.v.get y).toNat (m.sprite n)

/-- An execution of `DXYN`, whether all of its rows are in memory or not. -/
theorem state_drawSprite (m : Machine) (x y n : Nat) :
    (m.drawSprite x y n).state =
      { m with screen := (m.drawn x y n).1, v := m.v.setFlag (flagOf (m.drawn x y n).2) } := by
  simp only [drawSprite, Screen.plot_eq_draw, drawn, sprite]

/-- The machine after a `DXYN` that succeeds. -/
def afterDraw (m : Machine) (x y n : Nat) : Machine :=
  { m with
    pc := m.following
    screen := (m.drawn x y n).1
    v := m.v.setFlag (flagOf (m.drawn x y n).2) }

/-- **A sprite whose rows are in memory is drawn.** -/
theorem perform_draw (hin : n.toNat = 0 ∨ m.i.toNat + n.toNat ≤ 4096) :
    m.perform (.draw x y n) =
      ⟨m.afterDraw x y n.toNat, .ok .redraw, m.performLog (.draw x y n)⟩ := by
  have hresult : (m.execute (.draw x y n)).result = .ok (.next, .redraw) :=
    drawSprite_result_of_le x y hin
  rw [perform_of_ok hresult, show (m.execute (.draw x y n)).state = _ from m.state_drawSprite x y _]
  rfl

/-- **The screen after a drawing.** -/
theorem lit_drawn (m : Machine) (x y : Nat) {n : Nat} (hn : n ≤ 32) (c : Fin 64) (r : Fin 32) :
    (m.drawn x y n).1.lit (cell c r) = (m.screen.lit (cell c r) ^^ m.covers x y n c r) := by
  rw [drawn, Screen.lit_draw _ (Nat.le_trans (m.length_sprite_le n) hn), shows_sprite]

/-- **The flag of a drawing.** -/
theorem drawn_snd (m : Machine) (x y : Nat) {n : Nat} (hn : n ≤ 32) :
    (m.drawn x y n).2 = decide (m.Collides x y n) := by
  rw [Bool.eq_iff_iff, decide_eq_true_iff, drawn,
    Screen.draw_snd _ (Nat.le_trans (m.length_sprite_le n) hn)]
  simp only [shows_sprite, Collides]

/-- `VF` after a drawing. -/
theorem flag_afterDraw {n : Nat} (hn : n ≤ 32) :
    (m.afterDraw x y n).v.get Registers.flag = flagOf (decide (m.Collides x y n)) := by
  rw [afterDraw, Registers.get_setFlag, m.drawn_snd x y hn]

/-- The other registers after a drawing. -/
theorem get_afterDraw {n k : Nat} (hk : k ≠ Registers.flag) :
    (m.afterDraw x y n).v.get k = m.v.get k :=
  Registers.get_setFlag_of_ne _ _ hk

/-- **All that `DXYN` does.**  If its rows are in memory, it succeeds and asks for a redraw.  The
covered pixels change, and no others.  `VF` becomes `1` if one of them was lit, which is to say that
a lit pixel went dark, and `0` otherwise.  The program goes on behind the instruction, and all other
registers, the index register, memory, calls, keys and timers are as before. -/
theorem sprite_drawn (hi : (Instruction.draw x y n).Fits)
    (hin : n.toNat = 0 ∨ m.i.toNat + n.toNat ≤ 4096) :
    let o := m.perform (.draw x y n)
    let m' := o.state
    o.result = .ok .redraw ∧
      (∀ c r, m'.screen.lit (cell c r) =
        (m.screen.lit (cell c r) ^^ m.covers x y n.toNat c r)) ∧
      m'.v.get Registers.flag = (if m.Collides x y n.toNat then 1 else 0) ∧
      (m.Collides x y n.toNat ↔
        ∃ c r, m.screen.lit (cell c r) = true ∧ m'.screen.lit (cell c r) = false) ∧
      (∀ k, k ≠ Registers.flag → m'.v.get k = m.v.get k) ∧
      m' = { m with pc := m.pc + 2, screen := m'.screen, v := m'.v } := by
  intro o m'
  have hn : n.toNat ≤ 32 := Nat.le_trans (Nat.le_of_lt hi.2.2) (by decide)
  have ho : o = ⟨m.afterDraw x y n.toNat, .ok .redraw, m.performLog (.draw x y n)⟩ :=
    perform_draw hin
  have hstate : m' = m.afterDraw x y n.toNat := congrArg Outcome.state ho
  have hlit := m.lit_drawn x y hn
  rw [hstate]
  refine ⟨congrArg Outcome.result ho, hlit, ?flag, ?dark, ?registers, rfl⟩
  case flag =>
    simp only [flag_afterDraw hn, flagOf, decide_eq_true_iff]
  case dark =>
    -- a lit pixel goes dark if it is covered, and only then
    refine exists_congr fun c => exists_congr fun r => ?_
    rw [afterDraw, hlit]
    cases m.screen.lit (cell c r) <;> cases m.covers x y n.toNat c r <;> decide
  case registers =>
    exact fun k hk => get_afterDraw hk

/-- A machine that is about to draw the first glyph of the font over the lower right corner of its
screen, with `VF` for a coordinate.  One of the pixels on the opposite side is lit. -/
def atCorner : Machine :=
  { new default default none with
    v := (Registers.zero.set 0 30).set Registers.flag 62
    screen := Screen.dark.flip (cell 1 1) }

theorem sprite_drawn_atCorner :
    (Instruction.draw 15 0 5).Fits ∧ atCorner.i.toNat + 5 ≤ 4096 ∧
      (atCorner.perform (.draw 15 0 5)).result = .ok .redraw ∧
      (atCorner.perform (.draw 15 0 5)).state.v.get Registers.flag = 1 ∧
      (atCorner.perform (.draw 15 0 5)).state.screen.lit (cell 1 1) = false ∧
      (atCorner.perform (.draw 15 0 5)).state.screen.lit (cell 62 1) = true := by
  have hfits : (Instruction.draw 15 0 5).Fits := ⟨by decide, by decide, by decide⟩
  have hin : atCorner.i.toNat + 5 ≤ 4096 := by decide +kernel
  have hcollides : atCorner.Collides 15 0 5 := ⟨1, 1, by decide +kernel⟩
  obtain ⟨hresult, hlit, hflag, -⟩ := sprite_drawn (m := atCorner) hfits (.inr hin)
  refine ⟨hfits, hin, hresult, ?_, ?_, ?_⟩
  · rw [hflag]
    exact if_pos hcollides
  · rw [hlit]
    decide +kernel
  · rw [hlit]
    decide +kernel

end Machine
end Chip8
