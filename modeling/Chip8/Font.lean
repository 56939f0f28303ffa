/-!
# The font

The sixteen hexadecimal digits as sprites, four pixels wide and five rows high, stored one after
the other at the bottom of memory.
-/

namespace Chip8
namespace Font

/-- The address of the first glyph. -/
def location : Nat := 0

/-- The number of bytes of a glyph. -/
def glyphSize : Nat := 5

/-- The rows of all glyphs, `0` to `F`. -/
def bytes : List UInt8 :=
  [0xF0, 0x90, 0x90, 0x90, 0xF0,
   0x20, 0x60, 0x20, 0x20, 0x70,
   0xF0, 0x10, 0xF0, 0x80, 0xF0,
   0xF0, 0x10, 0xF0, 0x10, 0xF0,
   0x90, 0x90, 0xF0, 0x10, 0x10,
   0xF0, 0x80, 0xF0, 0x10, 0xF0,
   0xF0, 0x80, 0xF0, 0x90, 0xF0,
   0xF0, 0x10, 0x20, 0x40, 0x40,
   0xF0, 0x90, 0xF0, 0x90, 0xF0,
   0xF0, 0x90, 0xF0, 0x10, 0xF0,
   0xF0, 0x90, 0xF0, 0x90, 0x90,
   0xE0, 0x90, 0xE0, 0x90, 0xE0,
   0xF0, 0x80, 0x80, 0x80, 0xF0,
   0xE0, 0x90, 0x90, 0x90, 0xE0,
   0xF0, 0x80, 0xF0, 0x80, 0xF0,
   0xF0, 0x80, 0xF0, 0x80, 0x80]

/-- Sixteen glyphs. -/
theorem length_bytes : bytes.length = 16 * glyphSize := by decide

/-- The address of the glyph of a digit.  Every byte counts as a digit here: the addresses of those
above `0xF` lie behind the font. -/
def glyphAddress (digit : UInt8) : UInt16 :=
  UInt16.ofNat (location + digit.toNat * glyphSize)

theorem toNat_glyphAddress (digit : UInt8) :
    (glyphAddress digit).toNat = location + digit.toNat * glyphSize := by
  have := digit.toNat_lt
  simp only [glyphAddress, location, glyphSize, UInt16.toNat_ofNat']
  omega

end Font
end Chip8
