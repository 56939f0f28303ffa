/-!
# Random bytes

The bytes a program will draw are an endless sequence fixed in advance, with a count of those that
are already drawn.
-/

namespace Chip8

/-- An endless sequence of bytes and how many of them are used up. -/
structure RandomSource where
  stream : Nat → UInt8
  used : Nat

namespace RandomSource

/-- The bytes of a list over and over; an empty list counts as a single zero. -/
def cycling (bytes : List UInt8) : RandomSource :=
  let table := bytes.toArray
  ⟨fun i => table[i % table.size]?.getD 0, 0⟩

instance : Inhabited RandomSource := ⟨cycling []⟩

/-- Draws the next byte. -/
def draw (r : RandomSource) : UInt8 × RandomSource :=
  (r.stream r.used, { r with used := r.used + 1 })

/-- The bytes that are still to come. -/
def remaining (r : RandomSource) (i : Nat) : UInt8 := r.stream (r.used + i)

end RandomSource
end Chip8
