import Chip8.Keypad

/-!
# Which keys are down

A keypad can be asked for a single key, for any key, and for the lowest one.  The answers go together:
there is a lowest key that is down if any is, and it is one of those that are down.

## What is here

* `Keypad.isPressed_iff` — one key.
* `Keypad.anyPressed_iff`, `Keypad.lowest?_eq_some_iff` — the other two questions in its terms.
-/

set_option autoImplicit false

namespace Chip8
namespace Keypad

variable {k : Keypad} {c : UInt8}

theorem isPressed_iff : k.isPressed c = true ↔ ∃ h : c.toNat < 16, k.keys[c.toNat] = true := by
  rw [isPressed]
  rcases Nat.lt_or_ge c.toNat 16 with h | h
  · rw [Vector.getElem?_eq_getElem h, Option.getD_some]
    exact ⟨fun hkey => ⟨h, hkey⟩, fun hkey => hkey.2⟩
  · rw [Vector.getElem?_eq_none h, Option.getD_none]
    simp only [Bool.false_eq_true, false_iff, not_exists]
    intro hlt
    omega

theorem isPressed_ofNat {i : Nat} (hi : i < 16) : k.isPressed (UInt8.ofNat i) = k.keys[i] := by
  have hcode : (UInt8.ofNat i).toNat = i := by
    rw [UInt8.toNat_ofNat']
    omega
  rw [isPressed, hcode, Vector.getElem?_eq_getElem hi, Option.getD_some]

/-- **Any key is down** if one of them is. -/
theorem anyPressed_iff : k.anyPressed = true ↔ ∃ c, k.isPressed c = true := by
  rw [anyPressed, Vector.any_eq_true]
  constructor
  · rintro ⟨i, hi, hkey⟩
    exact ⟨UInt8.ofNat i, (isPressed_ofNat hi).trans hkey⟩
  · rintro ⟨c, hc⟩
    obtain ⟨h, hkey⟩ := isPressed_iff.1 hc
    exact ⟨c.toNat, h, hkey⟩

theorem lowest?_eq_none_iff_isPressed : k.lowest? = none ↔ ∀ c, k.isPressed c = false := by
  rw [lowest?_eq_none_iff, ← Bool.not_eq_true, anyPressed_iff, not_exists]
  simp only [Bool.not_eq_true]

/-- **The lowest key** is down, and none below it is. -/
theorem lowest?_eq_some_iff :
    k.lowest? = some c ↔ k.isPressed c = true ∧ ∀ d, k.isPressed d = true → c ≤ d := by
  rw [lowest?, Option.map_eq_some_iff]
  simp only [List.findIdx?_eq_some_iff_getElem, Vector.length_toList, Vector.getElem_toList, id]
  constructor
  · rintro ⟨i, ⟨hi, hkey, hbelow⟩, rfl⟩
    refine ⟨(isPressed_ofNat hi).trans hkey, fun d hd => ?_⟩
    obtain ⟨hlt, hdown⟩ := isPressed_iff.1 hd
    rw [UInt8.le_iff_toNat_le, UInt8.toNat_ofNat']
    rcases Nat.lt_or_ge d.toNat i with h | h
    · exact absurd hdown (hbelow d.toNat h)
    · omega
  · rintro ⟨hc, hlowest⟩
    obtain ⟨hlt, hdown⟩ := isPressed_iff.1 hc
    refine ⟨c.toNat, ⟨hlt, hdown, fun j hj hkey => ?_⟩, UInt8.ofNat_toNat⟩
    have hle := hlowest (UInt8.ofNat j) ((isPressed_ofNat (Nat.lt_trans hj hlt)).trans hkey)
    rw [UInt8.le_iff_toNat_le, UInt8.toNat_ofNat'] at hle
    omega

end Keypad
end Chip8
