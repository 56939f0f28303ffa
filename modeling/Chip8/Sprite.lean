import Chip8.Screen

/-!
# Sprites

A sprite is a list of rows of eight pixels, each a byte whose highest bit is the leftmost pixel.
Drawing it flips the pixels it covers; what leaves the screen on one side comes in on the other.

## What is here

* `Sprite.covers` — the pixels of a row.
* `Sprite.indices` — the places that a sprite covers on the screen, in drawing order.
* `Screen.plot` — draws a sprite and tells whether a lit pixel went dark.
-/

namespace Chip8

namespace Sprite

/-- The number of pixels of a row. -/
def rowWidth : Nat := 8

/-- Whether the pixel in a column of a row is part of the sprite. -/
def covers (row : UInt8) (column : Nat) : Bool := row.toNat.testBit (7 - column)

/-- The places that one row covers when its left end is at `(x, y)`. -/
def rowIndices (x y : Nat) (row : UInt8) : List Nat :=
  ((List.range rowWidth).filter (covers row)).map fun column => Screen.index (x + column) y

/-- The places that a sprite covers when its upper left end is at `(x, y)`, row by row and from
left to right. -/
def indices (x y : Nat) : List UInt8 → List Nat
  | [] => []
  | row :: below => rowIndices x y row ++ indices x (y + 1) below

end Sprite

/-- Draws a sprite: the new screen, whether a lit pixel was switched off, and whether a pixel is
missing. -/
def Screen.plot (s : Screen) (x y : Nat) (rows : List UInt8) : Screen × Bool × Except Fault Unit :=
  s.plotAll (Sprite.indices x y rows)

end Chip8
