import Chip8.Text.Numeral
import Mathlib.Algebra.Group.Nat.Defs

/-!
# Reading numerals

`Chip8.Text.Numeral` writes numbers.  Here they are read again: the value of the digits that the
characters stand for is the number, whatever zeros stand in front.  So a written number determines
the number, and the characters of its digits are the only ones that occur in it.

## What is here

* `Numeral.digitOf`, `Numeral.read` — the digit of a character, and the number of a text.
* `Numeral.read_decimal`, `Numeral.read_paddedHex` — the written forms are read back.
* `Numeral.markedHex_inj` — what is written determines the number.
* `Numeral.read_markedHexString`, `Numeral.read_decimalString` — strings are read back too, so
  `Numeral.markedHexString_inj` and `Numeral.decimalString_inj` hold.
* `Numeral.notMem_decimal`, `Numeral.notMem_markedHex` — what does not occur in them.
* `Numeral.length_paddedHex`, `Numeral.length_hex_le` — how long they are.
-/

set_option autoImplicit false

namespace Chip8
namespace Numeral

/-! ## Digits and their characters -/

/-- The digit that a character stands for. -/
def digitOf (c : Char) : Nat := if c.toNat < 58 then c.toNat - 48 else c.toNat - 55

theorem digitOf_digitChar {d : Nat} (hd : d < 16) : digitOf (digitChar d) = d := by
  have h : ∀ d < 16, digitOf (digitChar d) = d := by decide
  exact h d hd

/-- The number that a text of digits stands for. -/
def read (base : Nat) (cs : List Char) : Nat := value base (cs.map digitOf)

/-- The characters of digits are read as these digits. -/
theorem map_digitOf_map_digitChar {ds : List Nat} (h : ∀ d ∈ ds, d < 16) :
    (ds.map digitChar).map digitOf = ds := by
  rw [List.map_map]
  exact (List.map_congr_left fun d hd => digitOf_digitChar (h d hd)).trans (List.map_id ds)

/-- Leading zeros add nothing. -/
theorem value_replicate_zero_append (base k : Nat) (ds : List Nat) :
    value base (List.replicate k 0 ++ ds) = value base ds := by
  induction k with
  | zero => rfl
  | succ k ih => simpa [value, List.replicate_succ] using ih

/-! ## The written forms are read back -/

theorem read_decimal (n : Nat) : read 10 (decimal n) = n := by
  have hdigits (d : Nat) (hd : d ∈ digits 10 n) : d < 16 :=
    Nat.lt_trans (lt_of_mem_digits (by decide) hd) (by decide)
  rw [read, decimal, map_digitOf_map_digitChar hdigits, value_digits]

theorem read_hex (n : Nat) : read 16 (hex n) = n := by
  have hdigits (d : Nat) (hd : d ∈ digits 16 n) : d < 16 := lt_of_mem_digits (by decide) hd
  rw [read, hex, map_digitOf_map_digitChar hdigits, value_digits]

theorem read_paddedHex (width n : Nat) : read 16 (paddedHex width n) = n := by
  have hzeros (k : Nat) : (List.replicate k '0').map digitOf = List.replicate k 0 :=
    List.map_replicate
  rw [read, paddedHex, List.map_append, hzeros, value_replicate_zero_append]
  exact read_hex n

theorem markedHex_inj {width m n : Nat} : markedHex width m = markedHex width n ↔ m = n := by
  refine ⟨fun h => ?_, congrArg (markedHex width)⟩
  have hdigits : paddedHex width m = paddedHex width n := (List.cons.inj (List.cons.inj h).2).2
  rw [← read_paddedHex width m, hdigits, read_paddedHex]

/-- **A marked number is read back** from behind its mark. -/
theorem read_markedHexString (width n : Nat) :
    read 16 ((markedHexString width n).toList.drop 2) = n := by
  rw [markedHexString, String.toList_ofList]
  exact read_paddedHex width n

theorem read_decimalString (n : Nat) : read 10 (decimalString n).toList = n := by
  rw [decimalString, String.toList_ofList, read_decimal]

theorem markedHexString_inj {width m n : Nat} :
    markedHexString width m = markedHexString width n ↔ m = n := by
  refine ⟨fun h => ?_, congrArg (markedHexString width)⟩
  rw [← read_markedHexString width m, h, read_markedHexString]

theorem decimalString_inj {m n : Nat} : decimalString m = decimalString n ↔ m = n := by
  refine ⟨fun h => ?_, congrArg decimalString⟩
  rw [← read_decimalString m, h, read_decimalString]

/-! ## What does not occur in them -/

theorem notMem_decimal {c : Char} (hc : ∀ d < 10, digitChar d ≠ c) (n : Nat) : c ∉ decimal n := by
  intro h
  obtain ⟨d, hd, heq⟩ := List.mem_map.1 h
  exact hc d (lt_of_mem_digits (by decide) hd) heq

theorem notMem_hex {c : Char} (hc : ∀ d < 16, digitChar d ≠ c) (n : Nat) : c ∉ hex n := by
  intro h
  obtain ⟨d, hd, heq⟩ := List.mem_map.1 h
  exact hc d (lt_of_mem_digits (by decide) hd) heq

theorem notMem_paddedHex {c : Char} (hc : ∀ d < 16, digitChar d ≠ c) (width n : Nat) :
    c ∉ paddedHex width n := by
  intro h
  rcases List.mem_append.1 h with h | h
  · exact hc 0 (by decide) (List.eq_of_mem_replicate h).symm
  · exact notMem_hex hc n h

/-- Apart from digits, only the `x` of the mark occurs. -/
theorem notMem_markedHex {c : Char} (hc : ∀ d < 16, digitChar d ≠ c) (hx : c ≠ 'x')
    (width n : Nat) : c ∉ markedHex width n := by
  intro h
  rcases List.mem_cons.1 h with h | h
  · exact hc 0 (by decide) h.symm
  · rcases List.mem_cons.1 h with h | h
    · exact hx h
    · exact notMem_paddedHex hc width n h

/-! ## Lengths -/

theorem length_paddedHex (width n : Nat) :
    (paddedHex width n).length = max width (hex n).length := by
  simp only [paddedHex, List.length_append, List.length_replicate]
  omega

/-- A number below a power of the base has no more digits than the exponent says. -/
theorem length_digits_le {base k n : Nat} (h : n < base ^ (k + 1)) :
    (digits base n).length ≤ k + 1 := by
  induction k generalizing n with
  | zero =>
    rw [Nat.zero_add, Nat.pow_one] at h
    rw [digits, if_neg (by omega)]
    exact Nat.le_refl 1
  | succ k ih =>
    rw [digits]
    split
    · have hdiv : n / base < base ^ (k + 1) := Nat.div_lt_of_lt_mul (by rwa [← Nat.pow_succ'])
      rw [List.length_append, List.length_singleton]
      exact Nat.succ_le_succ (ih hdiv)
    · rw [List.length_singleton]
      omega

theorem length_hex_le {k n : Nat} (h : n < 16 ^ (k + 1)) : (hex n).length ≤ k + 1 := by
  rw [hex, List.length_map]
  exact length_digits_le h

end Numeral
end Chip8
