/-!
# Opcodes

An opcode is a big-endian 16 bit word, read as four nibbles `TXYN`.  The fields are taken by
division and remainder, so that every bound on them is a fact of arithmetic.

## What is here

* `Opcode` — the word.
* `Opcode.kind`, `x`, `y`, `n`, `nn`, `nnn` — its fields.
* `Opcode.ofBytes` — the word that two neighbouring bytes of memory hold.
-/

namespace Chip8

/-- A 16 bit instruction word. -/
structure Opcode where
  word : UInt16
deriving DecidableEq, Inhabited

namespace Opcode

/-- The number of bytes an opcode takes up in memory. -/
def size : Nat := 2

/-- The opcode whose high byte stands first in memory. -/
def ofBytes (high low : UInt8) : Opcode := ⟨UInt16.ofNat (high.toNat * 256 + low.toNat)⟩

/-- The word as a number. -/
def toNat (w : Opcode) : Nat := w.word.toNat

/-- The highest nibble, `T` of `TXYN`. -/
def kind (w : Opcode) : Nat := w.toNat / 4096

/-- The register index `X` of `TXYN`. -/
def x (w : Opcode) : Nat := w.toNat / 256 % 16

/-- The register index `Y` of `TXYN`. -/
def y (w : Opcode) : Nat := w.toNat / 16 % 16

/-- The lowest nibble, `N` of `TXYN`. -/
def n (w : Opcode) : Nat := w.toNat % 16

/-- The lower byte, `NN` of `TXNN`. -/
def nn (w : Opcode) : Nat := w.toNat % 256

/-- The lower twelve bits, `NNN` of `TNNN`. -/
def nnn (w : Opcode) : Nat := w.toNat % 4096

theorem toNat_lt (w : Opcode) : w.toNat < 65536 := w.word.toNat_lt

theorem kind_lt (w : Opcode) : w.kind < 16 := by
  have := w.toNat_lt
  unfold kind
  omega

theorem x_lt (w : Opcode) : w.x < 16 := Nat.mod_lt _ (by omega)

theorem y_lt (w : Opcode) : w.y < 16 := Nat.mod_lt _ (by omega)

theorem n_lt (w : Opcode) : w.n < 16 := Nat.mod_lt _ (by omega)

theorem nn_lt (w : Opcode) : w.nn < 256 := Nat.mod_lt _ (by omega)

theorem nnn_lt (w : Opcode) : w.nnn < 4096 := Nat.mod_lt _ (by omega)

theorem toNat_inj {v w : Opcode} : v.toNat = w.toNat ↔ v = w := by
  cases v
  cases w
  simp [toNat, UInt16.toNat_inj]

/-- An opcode keeps both of its bytes. -/
theorem toNat_ofBytes (high low : UInt8) :
    (ofBytes high low).toNat = high.toNat * 256 + low.toNat := by
  have hh := high.toNat_lt
  have hl := low.toNat_lt
  simp only [ofBytes, toNat, UInt16.toNat_ofNat']
  omega

end Opcode
end Chip8
