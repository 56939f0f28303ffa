import Chip8.Proofs.Decoding
import Mathlib.Logic.ExistsUnique

/-!
# Decoding loses nothing

`Chip8.Proofs.Decoding` says what a decoded instruction holds: its operands fit, and its word is the
one it was decoded from.  Here is the way back.  Every instruction whose operands fit has a word, and
decoding that word gives the instruction again, with two exceptions: the words of `sys 0x0E0` and
`sys 0x0EE` are those of `clear` and `ret`, which come first in the table.

So the decoder is a bijection between the words that match a row of the table and the instructions
that can be encoded, and it says of every other word that it is invalid.

## What is here

* `Instruction.Encodable`, `Instruction.encode` — the instructions that have a word of their own,
  and that word.
* `Instruction.ofOpcode?_of_toNat` — decoding it gives the instruction back.
* `Instruction.ofOpcode?_eq_some_iff` — both directions in one.
* `Instruction.decode_exact` — the bijection, and what is turned down.
-/

set_option autoImplicit false

namespace Chip8

/-! ## Fields of a word that was put together

The words of the table are sums of a constant, which holds the nibbles that a row fixes, and of the
operands in their places. -/

namespace Opcode

variable {w : Opcode} {c x y n nn nnn : Nat}

theorem fields_of_address (h : w.toNat = c + nnn) (hc : c % 4096 = 0) (hnnn : nnn < 4096) :
    w.kind = c / 4096 ∧ w.nnn = nnn := by
  simp only [kind, Opcode.nnn]
  omega

theorem fields_of_byte (h : w.toNat = c + x * 256 + nn) (hc : c % 4096 = 0) (hx : x < 16)
    (hnn : nn < 256) : w.kind = c / 4096 ∧ w.x = x ∧ w.nn = nn := by
  simp only [kind, Opcode.x, Opcode.nn]
  omega

theorem fields_of_nibbles (h : w.toNat = c + x * 256 + y * 16 + n) (hc : c % 4096 = 0)
    (hx : x < 16) (hy : y < 16) (hn : n < 16) :
    w.kind = c / 4096 ∧ w.x = x ∧ w.y = y ∧ w.n = n := by
  simp only [kind, Opcode.x, Opcode.y, Opcode.n]
  omega

theorem fields_of_register (h : w.toNat = c + x * 256) (hc : c % 4096 < 256) (hx : x < 16) :
    w.kind = c / 4096 ∧ w.x = x ∧ w.nn = c % 256 := by
  simp only [kind, Opcode.x, Opcode.nn]
  omega

end Opcode

theorem ArithmeticOp.nibble_lt (op : ArithmeticOp) : op.nibble < 16 := by
  cases op <;> decide

theorem ArithmeticOp.ofNibble?_nibble (op : ArithmeticOp) : ofNibble? op.nibble = some op := by
  cases op <;> rfl

namespace Instruction

/-! ## Words of instructions -/

/-- The instruction has a word of its own: its operands fit, and it is not one of the two calls into
the host whose words clear the screen and return. -/
structure Encodable (i : Instruction) : Prop where
  fits : i.Fits
  ne_clear : i ≠ sys 0x0E0
  ne_ret : i ≠ sys 0x0EE

/-- The word of an instruction. -/
def encode (i : Instruction) : Opcode := ⟨UInt16.ofNat i.code⟩

variable {i : Instruction} {w : Opcode}

theorem code_lt (h : i.Fits) : i.code < 65536 := by
  cases i with
  | arithmetic op x y =>
    have := op.nibble_lt
    simp only [Fits] at h
    simp only [code]
    omega
  | skipEqual x nn | skipNotEqual x nn | load x nn | add x nn | random x nn =>
    have := nn.toNat_lt
    simp only [Fits] at h
    simp only [code]
    omega
  | _ =>
    simp only [Fits] at h
    simp only [code]
    omega

theorem toNat_encode (h : i.Fits) : i.encode.toNat = i.code := by
  have hlt := code_lt h
  simp only [encode, Opcode.toNat, UInt16.toNat_ofNat']
  omega

theorem encodable_clear : clear.Encodable := ⟨trivial, nofun, nofun⟩

theorem encodable_ret : ret.Encodable := ⟨trivial, nofun, nofun⟩

/-! ## Back and forth -/

/-- **Decoding the word of an instruction gives the instruction back.** -/
theorem ofOpcode?_of_toNat (h : i.Encodable) (hw : w.toNat = i.code) : ofOpcode? w = some i := by
  have hfits := h.fits
  cases i with
  | sys nnn =>
    have hne {k : UInt16} (hk : sys nnn ≠ sys k) : w.toNat ≠ k.toNat := fun heq =>
      hk (congrArg sys (UInt16.toNat_inj.1 (hw.symm.trans heq)))
    have hclear : w.toNat ≠ 0x00E0 := hne h.ne_clear
    have hret : w.toNat ≠ 0x00EE := hne h.ne_ret
    obtain ⟨hk, hn⟩ := Opcode.fields_of_address (c := 0) (hw.trans (Nat.zero_add _).symm) rfl hfits
    simp [ofOpcode?, hk, ofSystem, hn, code]
  | clear | ret =>
    simp only [code] at hw
    simp [ofOpcode?, Opcode.kind, ofSystem, hw]
  | jump nnn | call nnn | loadIndex nnn | jumpOffset nnn =>
    obtain ⟨hk, hn⟩ := Opcode.fields_of_address hw rfl hfits
    simp [ofOpcode?, hk, hn]
  | skipEqual x nn | skipNotEqual x nn | load x nn | add x nn | random x nn =>
    obtain ⟨hk, hx, hnn⟩ := Opcode.fields_of_byte hw rfl hfits nn.toNat_lt
    simp [ofOpcode?, hk, hx, hnn]
  | skipEqualRegister x y | skipNotEqualRegister x y =>
    obtain ⟨hk, hx, hy, hn⟩ := Opcode.fields_of_nibbles (n := 0) hw rfl hfits.1 hfits.2 (by decide)
    simp [ofOpcode?, hk, hx, hy, hn]
  | arithmetic op x y =>
    obtain ⟨hk, hx, hy, hn⟩ := Opcode.fields_of_nibbles hw rfl hfits.1 hfits.2 op.nibble_lt
    simp [ofOpcode?, hk, hx, hy, hn, op.ofNibble?_nibble]
  | draw x y n =>
    obtain ⟨hk, hx, hy, hn⟩ := Opcode.fields_of_nibbles hw rfl hfits.1 hfits.2.1 hfits.2.2
    simp [ofOpcode?, hk, hx, hy, hn]
  | _ =>
    obtain ⟨hk, hx, hnn⟩ := Opcode.fields_of_register hw (by decide) hfits
    simp [ofOpcode?, ofKeyByte?, ofDeviceByte?, hk, hx, hnn]

/-- A decoded instruction is never one of the two that share their words. -/
theorem encodable_of_ofOpcode? (h : ofOpcode? w = some i) : i.Encodable := by
  obtain ⟨hfits, hcode⟩ := code_of_ofOpcode? h
  refine ⟨hfits, ?clear, ?ret⟩
  case clear =>
    rintro rfl
    have hclear : ofOpcode? w = some clear := ofOpcode?_of_toNat encodable_clear hcode.symm
    exact absurd (hclear.symm.trans h) nofun
  case ret =>
    rintro rfl
    have hret : ofOpcode? w = some ret := ofOpcode?_of_toNat encodable_ret hcode.symm
    exact absurd (hret.symm.trans h) nofun

/-- The decoder goes from the word of an instruction to the instruction, and nowhere else. -/
theorem ofOpcode?_eq_some_iff : ofOpcode? w = some i ↔ i.Encodable ∧ w.toNat = i.code :=
  ⟨fun h => ⟨encodable_of_ofOpcode? h, (code_of_ofOpcode? h).2.symm⟩,
    fun h => ofOpcode?_of_toNat h.1 h.2⟩

theorem decode_eq_ok_iff_code : decode w = .ok i ↔ i.Encodable ∧ w.toNat = i.code := by
  rw [decode_eq_ok_iff, ofOpcode?_eq_some_iff]

theorem decode_encode (h : i.Encodable) : decode i.encode = .ok i :=
  decode_eq_ok_iff_code.2 ⟨h, toNat_encode h.fits⟩

/-- The words that are decoded are those that match a row of the table. -/
theorem listed_iff_exists_decode : w.Listed ↔ ∃ i, decode w = .ok i := by
  simp only [decode_eq_ok_iff]
  rw [← Option.ne_none_iff_exists', ne_eq, ofOpcode?_eq_none_iff, Decidable.not_not]

/-- **Decoding is exact and loses nothing.**  An instruction is decoded from some word if and only if
its operands fit and it is not one of the two calls into the host whose words mean something else.
It is then decoded from one word alone, the one that the table has for it.  The words that match no
row of the table, and no others, are turned down, each with a fault that names it. -/
theorem decode_exact :
    (∀ i : Instruction, ((∃ w, decode w = .ok i) ↔ i.Encodable) ∧
      ((∃! w, decode w = .ok i) ↔ i.Encodable)) ∧
    (∀ (w : Opcode) (i : Instruction), decode w = .ok i ↔ i.Encodable ∧ w.toNat = i.code) ∧
    (∀ w : Opcode, (∃ i, decode w = .ok i) ↔ w.Listed) ∧
    ∀ (w : Opcode) (f : Fault), decode w = .error f ↔ ¬ w.Listed ∧ f = .invalidOpcode w := by
  refine ⟨fun i => ⟨⟨?some, ?encode⟩, ?one, ?unique⟩, fun w i => decode_eq_ok_iff_code,
    fun w => listed_iff_exists_decode.symm, fun w f => ?error⟩
  case some =>
    rintro ⟨w, hw⟩
    exact (decode_eq_ok_iff_code.1 hw).1
  case encode =>
    intro h
    exact ⟨i.encode, decode_encode h⟩
  case one =>
    rintro ⟨w, hw, -⟩
    exact (decode_eq_ok_iff_code.1 hw).1
  case unique =>
    intro h
    refine ⟨i.encode, decode_encode h, fun w hw => ?_⟩
    rw [← Opcode.toNat_inj, (decode_eq_ok_iff_code.1 hw).2, toNat_encode h.fits]
  case error => rw [decode_eq_error_iff, ofOpcode?_eq_none_iff]

end Instruction
end Chip8
