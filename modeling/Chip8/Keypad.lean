import Chip8.Outcome

/-!
# The keypad

Sixteen keys, `0` to `F`.  A host may report keys that the keypad does not have: they are ignored
and reported.

## What is here

* `Keypad.set`, `Keypad.press`, `Keypad.release` — one key.
* `Keypad.isPressed`, `Keypad.anyPressed`, `Keypad.lowest?` — what is pressed.
* `Keypad.ofCodes` — the keypad on which exactly the given keys are pressed.
-/

namespace Chip8

/-- Which keys are down. -/
structure Keypad where
  keys : Vector Bool 16
deriving DecidableEq

namespace Keypad

/-- The number of keys. -/
def size : Nat := 16

/-- The keys as they lie on the pad, row by row. -/
def layout : List (List Nat) :=
  [[0x1, 0x2, 0x3, 0xC],
   [0x4, 0x5, 0x6, 0xD],
   [0x7, 0x8, 0x9, 0xE],
   [0xA, 0x0, 0xB, 0xF]]

/-- No key is down. -/
def released : Keypad := ⟨Vector.replicate 16 false⟩

instance : Inhabited Keypad := ⟨released⟩

/-- Moves a key down or up. -/
def set (k : Keypad) (code : UInt8) (down : Bool) : Outcome Keypad Unit :=
  if h : code.toNat < 16 then ⟨⟨k.keys.set code.toNat down⟩, (), []⟩
  else ⟨k, (), [.unmappedKey code]⟩

/-- Moves a key down. -/
def press (k : Keypad) (code : UInt8) : Outcome Keypad Unit := k.set code true

/-- Moves a key up. -/
def release (k : Keypad) (code : UInt8) : Outcome Keypad Unit := k.set code false

/-- The keypad on which exactly the keys of a list are down. -/
def ofCodes (codes : List Nat) : Keypad := ⟨Vector.ofFn fun code => codes.contains code.val⟩

/-- Whether a key is down; one that the keypad does not have never is. -/
def isPressed (k : Keypad) (code : UInt8) : Bool := k.keys[code.toNat]?.getD false

/-- The codes of the keys that are down, in ascending order. -/
def pressed (k : Keypad) : List UInt8 :=
  ((List.range size).map UInt8.ofNat).filter k.isPressed

/-- Whether any key is down. -/
def anyPressed (k : Keypad) : Bool := k.keys.any id

/-- The lowest code of a key that is down. -/
def lowest? (k : Keypad) : Option UInt8 := (k.keys.toList.findIdx? id).map UInt8.ofNat

theorem lowest?_eq_none_iff {k : Keypad} : k.lowest? = none ↔ k.anyPressed = false := by
  rw [lowest?, Option.map_eq_none_iff, List.findIdx?_eq_none_iff, anyPressed, ← Vector.any_toList,
    List.any_eq_false]
  simp

end Keypad
end Chip8
