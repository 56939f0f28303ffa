import Chip8.Outcome
import Chip8.Registers

/-!
# Checked operations

The definitions of this library are total: a register that does not exist reads as zero, and sums
wrap around.  On a host each of these can abort the program instead: an index behind the end of an
array, a slice that is too long, a sum or a product that does not fit, a shift by too many bits.
Here the operations are written down once more with those aborts.  They are what the checked
execution of `Chip8.Proofs.Checked.Execute` is built from.

## What is here

* `Panic`, `Checked` — the aborts, and results that may be one.
* `Platform` — how large a size can be, which differs between hosts.
* `Checked.add16`, `Checked.mul16`, `Platform.add`, `Platform.mul` — sums and products.
* `Checked.shiftLeft8`, `Checked.shiftRight8`, `Checked.shiftRight16` — shifts.
* `Registers.peek`, `Registers.put`, `Registers.upTo` — registers and slices of them.
* `Checked.loop` — a loop that a fault ends early.

Each operation has a lemma that says when it gives the result of its total counterpart.
-/

set_option autoImplicit false

namespace Chip8

/-- Why a host aborts a program. -/
inductive Panic
  /-- There is no element `index` among `length` many. -/
  | index (index length : Nat)
  /-- There is no slice up to element `last` among `length` many. -/
  | slice (last length : Nat)
  /-- A sum, a product or the amount of a shift does not fit its type. -/
  | overflow
deriving DecidableEq

/-- A result, unless the program was aborted. -/
abbrev Checked (α : Type) := Except Panic α

theorem Checked.ok_bind {α β : Type} (a : α) (f : α → Checked β) :
    (Except.ok a >>= f : Checked β) = f a := rfl

/-! ## Numbers -/

/-- Hosts differ in how wide a size is. -/
inductive Platform
  | bits32
  | bits64
deriving DecidableEq

namespace Platform

/-- The first number that does not fit into a size. -/
def limit : Platform → Nat
  | bits32 => 0x100000000
  | bits64 => 0x10000000000000000

/-- A size, if it fits. -/
def size (p : Platform) (n : Nat) : Checked Nat :=
  if n < p.limit then .ok n else .error .overflow

/-- The sum of two sizes. -/
def add (p : Platform) (a b : Nat) : Checked Nat := p.size (a + b)

/-- The product of two sizes. -/
def mul (p : Platform) (a b : Nat) : Checked Nat := p.size (a * b)

/-- What fits into 32 bits fits everywhere. -/
theorem size_of_lt (p : Platform) {n : Nat} (h : n < 0x100000000) : p.size n = .ok n := by
  have hp : n < p.limit := by
    cases p with
    | bits32 => exact h
    | bits64 => exact Nat.lt_trans h (by decide)
  rw [size, if_pos hp]

theorem add_of_lt (p : Platform) {a b : Nat} (h : a + b < 0x100000000) :
    p.add a b = .ok (a + b) := p.size_of_lt h

theorem mul_of_lt (p : Platform) {a b : Nat} (h : a * b < 0x100000000) :
    p.mul a b = .ok (a * b) := p.size_of_lt h

end Platform

namespace Checked

/-- The sum of two words. -/
def add16 (a b : UInt16) : Checked UInt16 :=
  if a.toNat + b.toNat < 65536 then .ok (a + b) else .error .overflow

/-- The product of two words. -/
def mul16 (a b : UInt16) : Checked UInt16 :=
  if a.toNat * b.toNat < 65536 then .ok (a * b) else .error .overflow

/-- A byte shifted left. -/
def shiftLeft8 (b : UInt8) (k : Nat) : Checked UInt8 :=
  if k < 8 then .ok (b <<< UInt8.ofNat k) else .error .overflow

/-- A byte shifted right. -/
def shiftRight8 (b : UInt8) (k : Nat) : Checked UInt8 :=
  if k < 8 then .ok (b >>> UInt8.ofNat k) else .error .overflow

/-- A word shifted right. -/
def shiftRight16 (w : UInt16) (k : Nat) : Checked UInt16 :=
  if k < 16 then .ok (w >>> UInt16.ofNat k) else .error .overflow

theorem add16_of_lt {a b : UInt16} (h : a.toNat + b.toNat < 65536) : add16 a b = .ok (a + b) :=
  if_pos h

theorem mul16_of_lt {a b : UInt16} (h : a.toNat * b.toNat < 65536) : mul16 a b = .ok (a * b) :=
  if_pos h

theorem shiftLeft8_of_lt (b : UInt8) {k : Nat} (h : k < 8) :
    shiftLeft8 b k = .ok (UInt8.ofNat (b.toNat <<< k)) := by
  rw [shiftLeft8, if_pos h]
  refine congrArg Except.ok (UInt8.toNat_inj.mp ?_)
  rw [UInt8.toNat_shiftLeft, UInt8.toNat_ofNat', UInt8.toNat_ofNat']
  congr 2
  omega

theorem shiftRight8_of_lt (b : UInt8) {k : Nat} (h : k < 8) :
    shiftRight8 b k = .ok (UInt8.ofNat (b.toNat >>> k)) := by
  rw [shiftRight8, if_pos h]
  refine congrArg Except.ok (UInt8.toNat_inj.mp ?_)
  have hk : k % 256 % 8 = k := by omega
  have hlt : b.toNat >>> k < 256 := Nat.lt_of_le_of_lt (Nat.shiftRight_le ..) b.toNat_lt
  rw [UInt8.toNat_shiftRight, UInt8.toNat_ofNat', UInt8.toNat_ofNat']
  exact (congrArg (b.toNat >>> ·) hk).trans (Nat.mod_eq_of_lt hlt).symm

theorem shiftRight16_of_lt (w : UInt16) {k : Nat} (h : k < 16) :
    shiftRight16 w k = .ok (UInt16.ofNat (w.toNat >>> k)) := by
  rw [shiftRight16, if_pos h]
  refine congrArg Except.ok (UInt16.toNat_inj.mp ?_)
  have hk : k % 65536 % 16 = k := by omega
  have hlt : w.toNat >>> k < 65536 := Nat.lt_of_le_of_lt (Nat.shiftRight_le ..) w.toNat_lt
  rw [UInt16.toNat_shiftRight, UInt16.toNat_ofNat', UInt16.toNat_ofNat']
  exact (congrArg (w.toNat >>> ·) hk).trans (Nat.mod_eq_of_lt hlt).symm

end Checked

/-! ## Registers -/

namespace Registers

/-- The value of register `k`. -/
def peek (r : Registers) (k : Nat) : Checked UInt8 :=
  if k < count then .ok (r.get k) else .error (.index k count)

/-- Writes register `k`. -/
def put (r : Registers) (k : Nat) (b : UInt8) : Checked Registers :=
  if k < count then .ok (r.set k b) else .error (.index k count)

/-- The values of the registers up to `Vx`. -/
def upTo (r : Registers) (x : Nat) : Checked (List UInt8) :=
  if x < count then .ok (r.take (x + 1)) else .error (.slice x count)

theorem peek_of_lt (r : Registers) {k : Nat} (h : k < 16) : r.peek k = .ok (r.get k) := if_pos h

theorem put_of_lt (r : Registers) {k : Nat} (h : k < 16) (b : UInt8) :
    r.put k b = .ok (r.set k b) := if_pos h

theorem upTo_of_lt (r : Registers) {x : Nat} (h : x < 16) : r.upTo x = .ok (r.take (x + 1)) :=
  if_pos h

end Registers

/-! ## Loops -/

namespace Checked

variable {α σ : Type}

/-- Runs a body for each element of a list; a fault ends the loop. -/
def loop (body : σ → α → Checked (σ × Except Fault Unit)) (s : σ) :
    List α → Checked (σ × Except Fault Unit)
  | [] => .ok (s, .ok ())
  | a :: rest =>
    match body s a with
    | .error p => .error p
    | .ok (s', .error f) => .ok (s', .error f)
    | .ok (s', .ok ()) => loop body s' rest

theorem loop_cons_of_ok {body : σ → α → Checked (σ × Except Fault Unit)} {s s' : σ} {a : α}
    (h : body s a = .ok (s', .ok ())) (rest : List α) :
    loop body s (a :: rest) = loop body s' rest := by
  rw [loop, h]

theorem loop_cons_of_error {body : σ → α → Checked (σ × Except Fault Unit)} {s s' : σ} {a : α}
    {f : Fault} (h : body s a = .ok (s', .error f)) (rest : List α) :
    loop body s (a :: rest) = .ok (s', .error f) := by
  rw [loop, h]

end Checked
end Chip8
