import Chip8.Instruction.Decode

/-!
# What the decode table admits

The decode table of `Chip8.Instruction.Decode` is a nest of matches.  Here it is seen from outside,
in two ways that later proofs can use without opening it again.

## What is here

* `Pattern`, `Pattern.all` — the rows of the table as nibbles that are fixed or free, written down
  without the decoder.  `Instruction.ofOpcode?_eq_none_iff` says that the decoder turns down
  exactly the words that match no row.
* `Instruction.Fits`, `Instruction.code` — the operands an opcode has room for, and the word of an
  instruction as a number.  `Instruction.code_of_ofOpcode?` says that a decoded instruction fits,
  and that its word is the one it was decoded from.
* `Instruction.span`, `Opcode.span` — how many bytes behind the index register an instruction
  reads or writes, read off the instruction and read off the word; `Instruction.span_of_ofOpcode?`
  says that these agree.
-/

set_option autoImplicit false

namespace Chip8

/-! ## The rows of the table -/

/-- A row of the decode table: the nibbles it fixes, with `none` for an operand. -/
structure Pattern where
  kind : Nat
  x : Option Nat
  y : Option Nat
  n : Option Nat

namespace Pattern

/-- A word matches a row if it has every nibble that the row fixes. -/
def Matches (p : Pattern) (w : Opcode) : Prop :=
  w.kind = p.kind ∧ (∀ k ∈ p.x, w.x = k) ∧ (∀ k ∈ p.y, w.y = k) ∧ ∀ k ∈ p.n, w.n = k

instance (p : Pattern) (w : Opcode) : Decidable (p.Matches w) :=
  inferInstanceAs (Decidable (_ ∧ _ ∧ _ ∧ _))

/-- The rows of the decode table. -/
def all : List Pattern :=
  [⟨0x0, none, none, none⟩, ⟨0x0, some 0x0, some 0xE, some 0x0⟩,
   ⟨0x0, some 0x0, some 0xE, some 0xE⟩, ⟨0x1, none, none, none⟩, ⟨0x2, none, none, none⟩,
   ⟨0x3, none, none, none⟩, ⟨0x4, none, none, none⟩, ⟨0x5, none, none, some 0x0⟩,
   ⟨0x6, none, none, none⟩, ⟨0x7, none, none, none⟩,
   ⟨0x8, none, none, some 0x0⟩, ⟨0x8, none, none, some 0x1⟩, ⟨0x8, none, none, some 0x2⟩,
   ⟨0x8, none, none, some 0x3⟩, ⟨0x8, none, none, some 0x4⟩, ⟨0x8, none, none, some 0x5⟩,
   ⟨0x8, none, none, some 0x6⟩, ⟨0x8, none, none, some 0x7⟩, ⟨0x8, none, none, some 0xE⟩,
   ⟨0x9, none, none, some 0x0⟩, ⟨0xA, none, none, none⟩, ⟨0xB, none, none, none⟩,
   ⟨0xC, none, none, none⟩, ⟨0xD, none, none, none⟩,
   ⟨0xE, none, some 0x9, some 0xE⟩, ⟨0xE, none, some 0xA, some 0x1⟩,
   ⟨0xF, none, some 0x0, some 0x7⟩, ⟨0xF, none, some 0x0, some 0xA⟩,
   ⟨0xF, none, some 0x1, some 0x5⟩, ⟨0xF, none, some 0x1, some 0x8⟩,
   ⟨0xF, none, some 0x1, some 0xE⟩, ⟨0xF, none, some 0x2, some 0x9⟩,
   ⟨0xF, none, some 0x3, some 0x3⟩, ⟨0xF, none, some 0x5, some 0x5⟩,
   ⟨0xF, none, some 0x6, some 0x5⟩]

end Pattern

/-- A word is listed if it matches a row of the decode table. -/
def Opcode.Listed (w : Opcode) : Prop := ∃ p ∈ Pattern.all, p.Matches w

instance (w : Opcode) : Decidable w.Listed :=
  inferInstanceAs (Decidable (∃ p ∈ Pattern.all, p.Matches w))

/-- Fixing both nibbles of the lower byte fixes the byte. -/
theorem Opcode.nibbles_eq_iff (w : Opcode) {y n : Nat} (hn : n < 16) :
    (w.y = y ∧ w.n = n) ↔ w.nn = y * 16 + n := by
  simp only [nn, Opcode.y, Opcode.n]
  omega

/-! ## What the decoder turns down -/

namespace Instruction

theorem ofNibble?_eq_none_iff {n : Nat} :
    ArithmeticOp.ofNibble? n = none ↔
      ¬ (n = 0 ∨ n = 1 ∨ n = 2 ∨ n = 3 ∨ n = 4 ∨ n = 5 ∨ n = 6 ∨ n = 7 ∨ n = 14) := by
  unfold ArithmeticOp.ofNibble?
  split <;> simp_all

theorem ofKeyByte?_eq_none_iff {x nn : Nat} :
    ofKeyByte? x nn = none ↔ ¬ (nn = 0x9E ∨ nn = 0xA1) := by
  unfold ofKeyByte?
  split <;> simp_all

theorem ofDeviceByte?_eq_none_iff {x nn : Nat} :
    ofDeviceByte? x nn = none ↔
      ¬ (nn = 0x07 ∨ nn = 0x0A ∨ nn = 0x15 ∨ nn = 0x18 ∨ nn = 0x1E ∨ nn = 0x29 ∨ nn = 0x33
        ∨ nn = 0x55 ∨ nn = 0x65) := by
  unfold ofDeviceByte?
  split <;> simp_all

/-- **The decoder turns down exactly the words that match no row of the table.** -/
theorem ofOpcode?_eq_none_iff {w : Opcode} : ofOpcode? w = none ↔ ¬ w.Listed := by
  have hk := w.kind_lt
  simp only [Opcode.Listed, Pattern.all, Pattern.Matches, List.mem_cons, List.not_mem_nil, or_false,
    exists_eq_or_imp, exists_eq_left, Option.mem_def, reduceCtorEq, Option.some.injEq, forall_eq',
    false_imp_iff, implies_true, and_true, true_and, Opcode.nibbles_eq_iff, Nat.reduceLT,
    Nat.reduceMul, Nat.reduceAdd]
  rw [ofOpcode?]
  -- the kind of the word leaves only those rows that fix the same one
  split <;> rename_i h
  case h_17 => grind
  all_goals
    simp [h, ofNibble?_eq_none_iff, ofKeyByte?_eq_none_iff, ofDeviceByte?_eq_none_iff]

/-! ## What decoded instructions hold -/

/-- The operands are no larger than an opcode has room for. -/
def Fits : Instruction → Prop
  | clear | ret => True
  | sys nnn | jump nnn | call nnn | loadIndex nnn | jumpOffset nnn => nnn.toNat < 4096
  | skipEqual x _ | skipNotEqual x _ | load x _ | add x _ | random x _ => x < 16
  | skipEqualRegister x y | skipNotEqualRegister x y | arithmetic _ x y => x < 16 ∧ y < 16
  | draw x y n => x < 16 ∧ y < 16 ∧ n.toNat < 16
  | skipPressed x | skipNotPressed x | readDelay x | awaitKey x | setDelay x | setSound x
  | addIndex x | selectGlyph x | storeDecimal x | storeRegisters x | fillRegisters x => x < 16

end Instruction

/-- The lowest nibble of an `8XYN` operation. -/
def ArithmeticOp.nibble : ArithmeticOp → Nat
  | assign => 0x0
  | or => 0x1
  | and => 0x2
  | xor => 0x3
  | add => 0x4
  | sub => 0x5
  | shiftRight => 0x6
  | subFrom => 0x7
  | shiftLeft => 0xE

namespace Instruction

/-- The word of an instruction, as a number. -/
def code : Instruction → Nat
  | sys nnn => nnn.toNat
  | clear => 0x00E0
  | ret => 0x00EE
  | jump nnn => 0x1000 + nnn.toNat
  | call nnn => 0x2000 + nnn.toNat
  | skipEqual x nn => 0x3000 + x * 256 + nn.toNat
  | skipNotEqual x nn => 0x4000 + x * 256 + nn.toNat
  | skipEqualRegister x y => 0x5000 + x * 256 + y * 16
  | load x nn => 0x6000 + x * 256 + nn.toNat
  | add x nn => 0x7000 + x * 256 + nn.toNat
  | arithmetic op x y => 0x8000 + x * 256 + y * 16 + op.nibble
  | skipNotEqualRegister x y => 0x9000 + x * 256 + y * 16
  | loadIndex nnn => 0xA000 + nnn.toNat
  | jumpOffset nnn => 0xB000 + nnn.toNat
  | random x nn => 0xC000 + x * 256 + nn.toNat
  | draw x y n => 0xD000 + x * 256 + y * 16 + n.toNat
  | skipPressed x => 0xE09E + x * 256
  | skipNotPressed x => 0xE0A1 + x * 256
  | readDelay x => 0xF007 + x * 256
  | awaitKey x => 0xF00A + x * 256
  | setDelay x => 0xF015 + x * 256
  | setSound x => 0xF018 + x * 256
  | addIndex x => 0xF01E + x * 256
  | selectGlyph x => 0xF029 + x * 256
  | storeDecimal x => 0xF033 + x * 256
  | storeRegisters x => 0xF055 + x * 256
  | fillRegisters x => 0xF065 + x * 256

theorem toNat_nnn (w : Opcode) : (UInt16.ofNat w.nnn).toNat = w.nnn := by
  have := w.nnn_lt
  simp only [UInt16.toNat_ofNat']
  omega

theorem toNat_nn (w : Opcode) : (UInt8.ofNat w.nn).toNat = w.nn := by
  have := w.nn_lt
  simp only [UInt8.toNat_ofNat']
  omega

theorem toNat_n (w : Opcode) : (UInt8.ofNat w.n).toNat = w.n := by
  have := w.n_lt
  simp only [UInt8.toNat_ofNat']
  omega

/-- A word, put together from its kind and the address below it. -/
theorem toNat_eq_nnn (w : Opcode) : w.toNat = w.kind * 4096 + w.nnn := by
  simp only [Opcode.kind, Opcode.nnn]
  omega

/-- A word, put together from its kind, a register and its lower byte. -/
theorem toNat_eq_nn (w : Opcode) : w.toNat = w.kind * 4096 + w.x * 256 + w.nn := by
  simp only [Opcode.kind, Opcode.x, Opcode.nn]
  omega

/-- A word, put together from its four nibbles. -/
theorem toNat_eq_n (w : Opcode) : w.toNat = w.kind * 4096 + w.x * 256 + w.y * 16 + w.n := by
  simp only [Opcode.kind, Opcode.x, Opcode.y, Opcode.n]
  omega

theorem nibble_of_ofNibble? {n : Nat} {op : ArithmeticOp}
    (h : ArithmeticOp.ofNibble? n = some op) : op.nibble = n := by
  unfold ArithmeticOp.ofNibble? at h
  split at h <;> cases h <;> rfl

theorem code_of_ofSystem {w : Opcode} (hk : w.kind = 0) :
    (ofSystem w).Fits ∧ (ofSystem w).code = w.toNat := by
  rw [ofSystem]
  split
  next h => exact ⟨trivial, h.symm⟩
  next h => exact ⟨trivial, h.symm⟩
  next =>
    simp only [Fits, code, toNat_nnn, toNat_eq_nnn w, hk]
    exact ⟨w.nnn_lt, (Nat.zero_add _).symm⟩

theorem code_of_ofKeyByte? {x nn : Nat} {i : Instruction} (hx : x < 16)
    (h : ofKeyByte? x nn = some i) : i.Fits ∧ i.code = 0xE000 + x * 256 + nn := by
  unfold ofKeyByte? at h
  split at h <;> cases h <;> simp only [Fits, code] <;> omega

theorem code_of_ofDeviceByte? {x nn : Nat} {i : Instruction} (hx : x < 16)
    (h : ofDeviceByte? x nn = some i) : i.Fits ∧ i.code = 0xF000 + x * 256 + nn := by
  unfold ofDeviceByte? at h
  split at h <;> cases h <;> simp only [Fits, code] <;> omega

/-- **A decoded instruction holds no operand that an opcode has no room for, and its word is the
one it was decoded from.** -/
theorem code_of_ofOpcode? {w : Opcode} {i : Instruction} (h : ofOpcode? w = some i) :
    i.Fits ∧ i.code = w.toNat := by
  have hx := w.x_lt
  have hy := w.y_lt
  have hn := w.n_lt
  have hnnn := w.nnn_lt
  rw [ofOpcode?] at h
  split at h <;> rename_i hk
  case h_1 => cases h; exact code_of_ofSystem hk
  case h_9 =>
    obtain ⟨op, hop, rfl⟩ := Option.map_eq_some_iff.1 h
    simp only [Fits, code, nibble_of_ofNibble? hop, toNat_eq_n w]
    omega
  case h_15 => rw [toNat_eq_nn w, hk]; exact code_of_ofKeyByte? hx h
  case h_16 => rw [toNat_eq_nn w, hk]; exact code_of_ofDeviceByte? hx h
  case h_17 => cases h
  case h_2 | h_3 | h_11 | h_12 =>
    cases h
    simp only [Fits, code, toNat_nnn, toNat_eq_nnn w]
    omega
  case h_4 | h_5 | h_7 | h_8 | h_13 =>
    cases h
    simp only [Fits, code, toNat_nn, toNat_eq_nn w]
    omega
  case h_14 =>
    cases h
    simp only [Fits, code, toNat_n, toNat_eq_n w]
    omega
  case h_6 | h_10 =>
    split at h <;> cases h
    simp only [Fits, code, toNat_eq_n w]
    omega

/-! ## Bytes behind the index register -/

/-- The number of bytes from the index register on that an instruction reads or writes. -/
def span : Instruction → Nat
  | storeDecimal _ => 3
  | storeRegisters x | fillRegisters x => x + 1
  | draw _ _ n => n.toNat
  | _ => 0

end Instruction

/-- The number of bytes from the index register on that the instruction of a word reads or writes:
three for `FX33`, `X + 1` for `FX55` and `FX65`, and `N` for `DXYN`. -/
def Opcode.span (w : Opcode) : Nat :=
  if w.kind = 0xF ∧ w.nn = 0x33 then 3
  else if w.kind = 0xF ∧ (w.nn = 0x55 ∨ w.nn = 0x65) then w.x + 1
  else if w.kind = 0xD then w.n
  else 0

namespace Instruction

theorem span_ofSystem (w : Opcode) : (ofSystem w).span = 0 := by
  rw [ofSystem]
  split <;> rfl

theorem span_of_ofKeyByte? {x nn : Nat} {i : Instruction} (h : ofKeyByte? x nn = some i) :
    i.span = 0 := by
  unfold ofKeyByte? at h
  split at h <;> cases h <;> rfl

theorem span_of_ofDeviceByte? {x nn : Nat} {i : Instruction} (h : ofDeviceByte? x nn = some i) :
    i.span = if nn = 0x33 then 3 else if nn = 0x55 ∨ nn = 0x65 then x + 1 else 0 := by
  unfold ofDeviceByte? at h
  split at h <;> cases h <;> rfl

/-- The span of a decoded instruction can be read off its word. -/
theorem span_of_ofOpcode? {w : Opcode} {i : Instruction} (h : ofOpcode? w = some i) :
    i.span = w.span := by
  rw [ofOpcode?] at h
  split at h <;> rename_i hk <;> simp only [Opcode.span, hk, Nat.reduceEqDiff, false_and, true_and,
    if_false, if_true]
  case h_1 => cases h; exact span_ofSystem w
  case h_9 =>
    obtain ⟨op, -, rfl⟩ := Option.map_eq_some_iff.1 h
    rfl
  case h_14 => cases h; exact toNat_n w
  case h_15 => exact span_of_ofKeyByte? h
  case h_16 => exact span_of_ofDeviceByte? h
  case h_17 => cases h
  case h_6 | h_10 => split at h <;> cases h; rfl
  all_goals cases h; rfl

/-- The only word of a return is `00EE`. -/
theorem ofOpcode?_eq_ret_iff {w : Opcode} : ofOpcode? w = some ret ↔ w.toNat = 0x00EE := by
  refine ⟨fun h => (code_of_ofOpcode? h).2.symm, fun h => ?_⟩
  simp [ofOpcode?, Opcode.kind, ofSystem, h]

end Instruction
end Chip8
