/-!
# Registers

The sixteen data registers `V0` to `VF`.  Registers are named by natural numbers; there is nothing
to read from or write to a register above `VF`.

## What is here

* `Registers.get`, `Registers.set` — one register; `get_set` relates them.
* `Registers.setFlag` — writes `VF`, the flag register.
* `Registers.take`, `Registers.fill` — the first few registers as a list, and written from a list.
-/

namespace Chip8

/-- The data registers. -/
structure Registers where
  cells : Vector UInt8 16
deriving DecidableEq

namespace Registers

/-- The number of data registers. -/
def count : Nat := 16

/-- The number of the flag register `VF`. -/
def flag : Nat := count - 1

/-- All registers zero. -/
def zero : Registers := ⟨Vector.replicate 16 0⟩

instance : Inhabited Registers := ⟨zero⟩

/-- The value of register `k`. -/
def get (r : Registers) (k : Nat) : UInt8 := r.cells[k]?.getD 0

/-- Writes register `k`. -/
def set (r : Registers) (k : Nat) (b : UInt8) : Registers := ⟨r.cells.setIfInBounds k b⟩

/-- Writes the flag register. -/
def setFlag (r : Registers) (b : UInt8) : Registers := r.set flag b

/-- The values of all registers, `V0` first. -/
def toList (r : Registers) : List UInt8 := r.cells.toList

/-- The values of the first `n` registers. -/
def take (r : Registers) (n : Nat) : List UInt8 := r.toList.take n

theorem length_take (r : Registers) {n : Nat} (h : n ≤ 16) : (r.take n).length = n := by
  simp only [take, toList, List.length_take, Vector.length_toList]
  omega

theorem getElem?_take (r : Registers) {n : Nat} (hn : n ≤ 16) (k : Nat) :
    (r.take n)[k]? = if k < n then some (r.get k) else none := by
  rw [take, toList, List.getElem?_take, Vector.getElem?_toList]
  split
  next hk =>
    rw [get, Vector.getElem?_eq_getElem (by omega)]
    rfl
  next => rfl

/-- Writes consecutive registers from `k` on. -/
def fillFrom (r : Registers) (k : Nat) : List UInt8 → Registers
  | [] => r
  | b :: bs => (r.set k b).fillFrom (k + 1) bs

/-- Writes the first registers from a list. -/
def fill (r : Registers) (bs : List UInt8) : Registers := r.fillFrom 0 bs

/-- A write to register `k` is seen there and nowhere else. -/
theorem get_set (r : Registers) (k j : Nat) (b : UInt8) :
    (r.set k b).get j = if j = k ∧ k < 16 then b else r.get j := by
  simp only [get, set, Vector.getElem?_setIfInBounds]
  by_cases hjk : k = j
  · subst hjk
    by_cases hk : k < 16
    · simp [hk]
    · rw [if_pos rfl, if_neg hk, if_neg (fun h => hk h.2), Vector.getElem?_eq_none (by omega)]
  · rw [if_neg hjk, if_neg (fun h => hjk h.1.symm)]

/-- Consecutive writes are seen in the registers they went to and nowhere else. -/
theorem get_fillFrom (r : Registers) (k : Nat) (bs : List UInt8) (j : Nat) :
    (r.fillFrom k bs).get j =
      if k ≤ j ∧ j < 16 then bs[j - k]?.getD (r.get j) else r.get j := by
  induction bs generalizing r k with
  | nil => simp [fillFrom]
  | cons b bs ih =>
    rw [fillFrom, ih]
    simp only [get_set]
    rcases Nat.lt_trichotomy j k with h | rfl | h
    · rw [if_neg (by omega), if_neg (by omega), if_neg (by omega)]
    · by_cases hj : j < 16
      · rw [if_neg (by omega), if_pos ⟨rfl, hj⟩, if_pos ⟨Nat.le_refl j, hj⟩, Nat.sub_self]
        rfl
      · rw [if_neg (by omega), if_neg (by omega), if_neg (by omega)]
    · by_cases hj : j < 16
      · have hs : j - k = (j - (k + 1)) + 1 := by omega
        rw [if_pos ⟨h, hj⟩, if_neg (by omega), if_pos ⟨by omega, hj⟩, hs,
          List.getElem?_cons_succ]
      · rw [if_neg (by omega), if_neg (by omega), if_neg (by omega)]

/-- Registers are equal if every one of them reads the same. -/
theorem ext_get {r s : Registers} (h : ∀ k, k < 16 → r.get k = s.get k) : r = s := by
  cases r with
  | mk a =>
    cases s with
    | mk b =>
      refine congrArg Registers.mk (Vector.ext fun k hk => ?_)
      have hk' := h k hk
      rwa [get, get, Vector.getElem?_eq_getElem hk, Vector.getElem?_eq_getElem hk] at hk'

end Registers
end Chip8
