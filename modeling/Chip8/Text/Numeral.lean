/-!
# Numerals

The digits of a natural number in a base, and the two ways this library writes them: decimal, and
upper case hexadecimal with or without the mark `0x`.

## What is here

* `digits` — the digits of a number, most significant first and without leading zeros.
* `value` — the number a list of digits stands for; `value_digits` says that nothing is lost.
* `decimal`, `hex`, `markedHex` — the written forms.
-/

namespace Chip8
namespace Numeral

/-! ## Digits -/

/-- The digits of `n` in base `base`, most significant first; zero is the single digit `0`. -/
def digits (base n : Nat) : List Nat :=
  if 2 ≤ base ∧ base ≤ n then digits base (n / base) ++ [n % base] else [n]
termination_by n
decreasing_by exact Nat.div_lt_self (by omega) (by omega)

/-- The number a list of digits stands for. -/
def value (base : Nat) (ds : List Nat) : Nat := ds.foldl (fun v d => v * base + d) 0

theorem value_append_singleton (base : Nat) (ds : List Nat) (d : Nat) :
    value base (ds ++ [d]) = value base ds * base + d := by
  simp [value]

/-- Reading the digits of a number gives the number back. -/
theorem value_digits (base n : Nat) : value base (digits base n) = n := by
  fun_induction digits base n with
  | case1 n h ih => rw [value_append_singleton, ih, Nat.div_add_mod']
  | case2 n h => simp [value]

/-- A digit is smaller than the base. -/
theorem lt_of_mem_digits {base n d : Nat} (hb : 2 ≤ base) (h : d ∈ digits base n) : d < base := by
  fun_induction digits base n with
  | case1 n hn ih =>
    rcases List.mem_append.1 h with h | h
    · exact ih h
    · rw [List.mem_singleton.1 h]
      exact Nat.mod_lt _ (by omega)
  | case2 n hn =>
    rw [List.mem_singleton.1 h]
    omega

/-! ## Written forms -/

/-- The character of a digit: `0` to `9`, then `A` to `F`. -/
def digitChar (d : Nat) : Char :=
  if d < 10 then Char.ofNat (48 + d) else Char.ofNat (55 + d)

/-- The decimal form. -/
def decimal (n : Nat) : List Char := (digits 10 n).map digitChar

/-- The hexadecimal form, as short as it can be. -/
def hex (n : Nat) : List Char := (digits 16 n).map digitChar

/-- The hexadecimal form filled up with zeros to at least `width` digits. -/
def paddedHex (width n : Nat) : List Char :=
  List.replicate (width - (hex n).length) '0' ++ hex n

/-- The mark `0x` and at least `width` hexadecimal digits. -/
def markedHex (width n : Nat) : List Char := '0' :: 'x' :: paddedHex width n

/-- `markedHex` as a string. -/
def markedHexString (width n : Nat) : String := String.ofList (markedHex width n)

/-- `decimal` as a string. -/
def decimalString (n : Nat) : String := String.ofList (decimal n)

end Numeral
end Chip8
