import Chip8.Fault
import Chip8.Text.Chunks

/-!
# The screen

A monochrome screen of 64 by 32 pixels, kept row by row.

## What is here

* `Screen.index` — the place of a coordinate; both axes wrap around.
* `Screen.lit`, `Screen.flip` — one pixel of the screen.
* `Screen.isOn`, `Screen.toggle` — the same by index; one outside of the screen is a fault.
* `Screen.plotAll` — flips pixels one after the other and tells whether a lit one went dark.
* `Screen.rows`, `Screen.buffer` — the rows from top to bottom, and all pixels as bytes.
-/

namespace Chip8

/-- The pixels, row by row. -/
structure Screen where
  pixels : Vector Bool 2048
deriving DecidableEq

namespace Screen

/-- The number of columns. -/
def width : Nat := 64

/-- The number of rows. -/
def height : Nat := 32

/-- The number of pixels. -/
def resolution : Nat := width * height

/-- Every pixel off. -/
def dark : Screen := ⟨Vector.replicate 2048 false⟩

instance : Inhabited Screen := ⟨dark⟩

/-! ## Single pixels -/

/-- The place of the pixel in column `x` and row `y`, both taken modulo the size of the screen. -/
def index (x y : Nat) : Nat := y % height * width + x % width

theorem index_lt (x y : Nat) : index x y < 2048 := by
  simp only [index, height, width]
  omega

/-- Whether a pixel of the screen is on. -/
def lit (s : Screen) (i : Fin 2048) : Bool := s.pixels[i]

/-- Flips a pixel of the screen. -/
def flip (s : Screen) (i : Fin 2048) : Screen := ⟨s.pixels.set i (!s.lit i)⟩

/-- Flips the pixel at an index. -/
def toggle (s : Screen) (i : Nat) : Except Fault Screen :=
  if h : i < 2048 then .ok (s.flip ⟨i, h⟩) else .error (.pixelOutOfBounds i resolution)

/-- Whether the pixel at an index is on. -/
def isOn (s : Screen) (i : Nat) : Except Fault Bool :=
  if h : i < 2048 then .ok (s.lit ⟨i, h⟩) else .error (.pixelOutOfBounds i resolution)

/-- A flip is seen at its pixel and nowhere else. -/
theorem lit_flip (s : Screen) (i j : Fin 2048) :
    (s.flip i).lit j = if j = i then !s.lit i else s.lit j := by
  by_cases h : j = i
  · simp [flip, lit, h]
  · have hv : (i : Nat) ≠ (j : Nat) := fun e => h (Fin.ext e.symm)
    simp [flip, lit, h, Vector.getElem_set_ne, hv]

/-! ## Several pixels -/

/-- Flips the pixels at indices one after the other, up to the first that is missing: the screen
with those flipped, whether one of them was on, and whether one is missing. -/
def plotAll (s : Screen) : List Nat → Screen × Bool × Except Fault Unit
  | [] => (s, false, .ok ())
  | i :: rest =>
    match s.isOn i with
    | .error f => (s, false, .error f)
    | .ok on =>
      match s.toggle i with
      | .error f => (s, on, .error f)
      | .ok s' =>
        let after := s'.plotAll rest
        (after.1, on || after.2.1, after.2.2)

/-! ## Views -/

/-- The rows from top to bottom, each from left to right. -/
def rows (s : Screen) : List (List Bool) := chunks width s.pixels.toList

/-- The pixels as bytes, row by row: `1` for a pixel that is on and `0` for one that is off. -/
def buffer (s : Screen) : List UInt8 := s.pixels.toList.map fun on => if on then 1 else 0

/-- The number of pixels that are on. -/
def countOn (s : Screen) : Nat := s.pixels.toList.count true

/-- Flips the pixels at `first`, `first + stride`, … before `last`, up to the first missing one. -/
def toggleEvery (s : Screen) (first last stride : Nat) : Screen × Except Fault Unit :=
  if first < last then
    match s.toggle first with
    | .error f => (s, .error f)
    | .ok s' =>
      if 0 < stride then s'.toggleEvery (first + stride) last stride else (s', .ok ())
  else (s, .ok ())
termination_by last - first

end Screen

end Chip8
