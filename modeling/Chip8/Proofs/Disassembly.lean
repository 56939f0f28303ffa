import Chip8.Instruction.Assembly
import Chip8.Proofs.Encoding
import Chip8.Proofs.Text.Numerals
import Mathlib.Data.List.TakeWhile

/-!
# Assembly texts can be read back

The text of an instruction is made in three steps: an instruction becomes a statement, a mnemonic
with operands; operands and mnemonic become characters; and the pieces are put together with one
blank behind the mnemonic and a comma and a blank between operands.  Each step can be undone.  No
mnemonic contains a blank and no operand a comma, so the pieces are found again.  The first character
of an operand tells what it is, but for a byte and an address, which differ in their length, and a
count, which is the only one in decimal.  And the forms that share a mnemonic differ in what their
operands are.

So a text stands for one instruction at most, whatever its operands are: also for those that no
opcode has room for.

## What is here

* `Operand.ofChars`, `Mnemonic.ofChars?`, `Statement.ofChars?` — the readers of the pieces, each with
  the theorem that it undoes the writing.
* `Statement.instruction?` — the instruction that a statement belongs to.
* `Instruction.ofText?`, `Instruction.ofText?_text` — the instruction that a text belongs to.
* `Instruction.text_unambiguous` — no two instructions have the same text.
-/

set_option autoImplicit false

namespace Chip8

open Numeral

/-! ## Operands -/

namespace Operand

/-- The operand that a text stands for. -/
def ofChars : List Char → Operand
  | 'V' :: cs => register (read 16 cs)
  | '0' :: 'x' :: cs =>
    if cs.length = 2 then byte (UInt8.ofNat (read 16 cs)) else address (UInt16.ofNat (read 16 cs))
  | ['I'] => index
  | ['[', 'I', ']'] => atIndex
  | ['D', 'T'] => delay
  | ['S', 'T'] => sound
  | ['K'] => key
  | ['F'] => font
  | ['B'] => decimalDigits
  | cs => count (UInt8.ofNat (read 10 cs))

/-- Addresses have three digits at least, bytes have two. -/
theorem length_paddedHex_byte (nn : UInt8) : (paddedHex 2 nn.toNat).length = 2 := by
  have hle : (hex nn.toNat).length ≤ 2 := length_hex_le nn.toNat_lt
  rw [length_paddedHex]
  omega

theorem length_paddedHex_address (nnn : UInt16) : (paddedHex 3 nnn.toNat).length ≠ 2 := by
  rw [length_paddedHex]
  omega

theorem ofChars_decimal (n : UInt8) : ofChars (decimal n.toNat) = count n := by
  have hread : count (UInt8.ofNat (read 10 (decimal n.toNat))) = count n := by
    rw [read_decimal, UInt8.ofNat_toNat]
  have hmem (c : Char) (hc : ∀ d < 10, digitChar d ≠ c) : c ∉ decimal n.toNat :=
    notMem_decimal hc n.toNat
  generalize decimal n.toNat = cs at hread hmem
  unfold ofChars
  split
  case h_1 => exact absurd List.mem_cons_self (hmem 'V' (by decide))
  case h_2 => exact absurd (.tail _ List.mem_cons_self) (hmem 'x' (by decide))
  case h_3 => exact absurd List.mem_cons_self (hmem 'I' (by decide))
  case h_4 => exact absurd List.mem_cons_self (hmem '[' (by decide))
  case h_5 => exact absurd List.mem_cons_self (hmem 'D' (by decide))
  case h_6 => exact absurd List.mem_cons_self (hmem 'S' (by decide))
  case h_7 => exact absurd List.mem_cons_self (hmem 'K' (by decide))
  case h_8 => exact absurd List.mem_cons_self (hmem 'F' (by decide))
  case h_9 => exact absurd List.mem_cons_self (hmem 'B' (by decide))
  case h_10 => exact hread

/-- **The text of an operand is read back.** -/
theorem ofChars_chars (o : Operand) : ofChars o.chars = o := by
  cases o with
  | register k => simp only [chars, ofChars, read_hex]
  | address nnn =>
    simp only [chars, markedHex, ofChars, if_neg (length_paddedHex_address nnn), read_paddedHex,
      UInt16.ofNat_toNat]
  | byte nn =>
    simp only [chars, markedHex, ofChars, if_pos (length_paddedHex_byte nn), read_paddedHex,
      UInt8.ofNat_toNat]
  | count n => exact ofChars_decimal n
  | _ => rfl

/-- No operand contains a comma. -/
theorem comma_notMem_chars (o : Operand) : ',' ∉ o.chars := by
  have hdigit : ∀ d < 16, digitChar d ≠ ',' := by decide
  cases o with
  | register k =>
    intro h
    rcases List.mem_cons.1 h with h | h
    · exact absurd h (by decide)
    · exact notMem_hex hdigit k h
  | address nnn => exact notMem_markedHex hdigit (by decide) 3 nnn.toNat
  | byte nn => exact notMem_markedHex hdigit (by decide) 2 nn.toNat
  | count n => exact notMem_decimal (fun d hd => hdigit d (Nat.lt_trans hd (by decide))) n.toNat
  | _ => decide

/-- The operands of a list of characters, set apart by commas, each with a blank in front. -/
def listOfChars (cs : List Char) : List Operand := (cs.splitOn ',').map fun c => ofChars c.tail

theorem listChars_cons_cons (o o' : Operand) (os : List Operand) :
    listChars (o :: o' :: os) = o.chars ++ ',' :: ' ' :: listChars (o' :: os) := rfl

/-- With a blank in front, all operands of a list look alike. -/
theorem cons_listChars {os : List Operand} (h : os ≠ []) :
    ' ' :: listChars os = [','].intercalate (os.map fun o => ' ' :: o.chars) := by
  induction os with
  | nil => exact absurd rfl h
  | cons o os ih =>
    cases os with
    | nil => simp [listChars]
    | cons o' os =>
      have hne : o' :: os ≠ [] := List.cons_ne_nil o' os
      rw [listChars_cons_cons, ih hne]
      simp only [List.map_cons, List.intercalate_cons_cons, List.cons_append, List.append_assoc,
        List.nil_append]

theorem listOfChars_cons_listChars {os : List Operand} (h : os ≠ []) :
    listOfChars (' ' :: listChars os) = os := by
  have hcomma : ∀ l ∈ os.map (fun o => ' ' :: o.chars), ',' ∉ l := by
    intro l hl
    obtain ⟨o, -, rfl⟩ := List.mem_map.1 hl
    rw [List.mem_cons, not_or]
    exact ⟨by decide, o.comma_notMem_chars⟩
  have hne : os.map (fun o => ' ' :: o.chars) ≠ [] := fun heq => h (List.map_eq_nil_iff.1 heq)
  rw [listOfChars, cons_listChars h, List.splitOn_intercalate _ hcomma hne, List.map_map]
  exact (List.map_congr_left fun o _ => o.ofChars_chars).trans (List.map_id os)

end Operand

/-! ## Statements -/

namespace Mnemonic

/-- All mnemonics. -/
def all : List Mnemonic :=
  [sys, cls, ret, jp, call, se, sne, ld, add, or, and, xor, sub, shr, subn, shl, rnd, drw, skp, sknp]

/-- The mnemonic that a text stands for, if any. -/
def ofChars? (cs : List Char) : Option Mnemonic := all.find? fun m => m.chars = cs

/-- **The text of a mnemonic is read back.** -/
theorem ofChars?_chars (m : Mnemonic) : ofChars? m.chars = some m := by
  cases m <;> rfl

/-- No mnemonic contains a blank. -/
theorem blank_notMem_chars (m : Mnemonic) : ' ' ∉ m.chars := by
  cases m <;> decide

end Mnemonic

namespace Statement

/-- The statement that a text stands for, if its mnemonic exists: what comes before the first blank
is the mnemonic. -/
def ofChars? (cs : List Char) : Option Statement :=
  (Mnemonic.ofChars? (cs.takeWhile (· ≠ ' '))).map fun m =>
    ⟨m, match cs.dropWhile (· ≠ ' ') with
      | [] => []
      | rest => Operand.listOfChars rest⟩

/-- **The text of a statement is read back.** -/
theorem ofChars?_chars (s : Statement) : ofChars? s.chars = some s := by
  obtain ⟨m, os⟩ := s
  have hm : ∀ c ∈ m.chars, decide (c ≠ ' ') = true := fun c hc =>
    decide_eq_true fun heq => m.blank_notMem_chars (heq ▸ hc)
  cases os with
  | nil =>
    have htake : m.chars.takeWhile (· ≠ ' ') = m.chars := List.takeWhile_eq_self_iff.2 hm
    have hdrop : m.chars.dropWhile (· ≠ ' ') = [] := List.dropWhile_eq_nil_iff.2 hm
    simp only [chars, ofChars?, htake, hdrop, m.ofChars?_chars, Option.map_some]
  | cons o os =>
    have hne : o :: os ≠ [] := List.cons_ne_nil o os
    simp only [chars, ofChars?, List.takeWhile_append_of_pos hm, List.dropWhile_append_of_pos hm]
    simp only [ne_eq, not_true_eq_false, decide_false, Bool.false_eq_true, not_false_eq_true,
      List.takeWhile_cons_of_neg, List.dropWhile_cons_of_neg, List.append_nil, m.ofChars?_chars,
      Option.map_some, Operand.listOfChars_cons_listChars hne]

end Statement

/-! ## Instructions -/

/-- The instruction that a statement belongs to, if any. -/
def Statement.instruction? (s : Statement) : Option Instruction :=
  match s.mnemonic, s.operands with
  | .sys, [.address nnn] => some (.sys nnn)
  | .cls, [] => some .clear
  | .ret, [] => some .ret
  | .jp, [.address nnn] => some (.jump nnn)
  | .jp, [.register 0, .address nnn] => some (.jumpOffset nnn)
  | .call, [.address nnn] => some (.call nnn)
  | .se, [.register x, .byte nn] => some (.skipEqual x nn)
  | .se, [.register x, .register y] => some (.skipEqualRegister x y)
  | .sne, [.register x, .byte nn] => some (.skipNotEqual x nn)
  | .sne, [.register x, .register y] => some (.skipNotEqualRegister x y)
  | .ld, [.register x, .byte nn] => some (.load x nn)
  | .ld, [.register x, .register y] => some (.arithmetic .assign x y)
  | .ld, [.index, .address nnn] => some (.loadIndex nnn)
  | .ld, [.register x, .delay] => some (.readDelay x)
  | .ld, [.register x, .key] => some (.awaitKey x)
  | .ld, [.delay, .register x] => some (.setDelay x)
  | .ld, [.sound, .register x] => some (.setSound x)
  | .ld, [.font, .register x] => some (.selectGlyph x)
  | .ld, [.decimalDigits, .register x] => some (.storeDecimal x)
  | .ld, [.atIndex, .register x] => some (.storeRegisters x)
  | .ld, [.register x, .atIndex] => some (.fillRegisters x)
  | .add, [.register x, .byte nn] => some (.add x nn)
  | .add, [.index, .register x] => some (.addIndex x)
  | .add, [.register x, .register y] => some (.arithmetic .add x y)
  | .or, [.register x, .register y] => some (.arithmetic .or x y)
  | .and, [.register x, .register y] => some (.arithmetic .and x y)
  | .xor, [.register x, .register y] => some (.arithmetic .xor x y)
  | .sub, [.register x, .register y] => some (.arithmetic .sub x y)
  | .shr, [.register x, .register y] => some (.arithmetic .shiftRight x y)
  | .subn, [.register x, .register y] => some (.arithmetic .subFrom x y)
  | .shl, [.register x, .register y] => some (.arithmetic .shiftLeft x y)
  | .rnd, [.register x, .byte nn] => some (.random x nn)
  | .drw, [.register x, .register y, .count n] => some (.draw x y n)
  | .skp, [.register x] => some (.skipPressed x)
  | .sknp, [.register x] => some (.skipNotPressed x)
  | _, _ => none

namespace Instruction

/-- **The statement of an instruction belongs to it.** -/
theorem instruction?_assembly (i : Instruction) : i.assembly.instruction? = some i := by
  cases i with
  | arithmetic op x y => cases op <;> rfl
  | _ => rfl

/-- The instruction that a text belongs to, if any. -/
def ofText? (s : String) : Option Instruction :=
  (Statement.ofChars? s.toList).bind Statement.instruction?

/-- **The text of an instruction is read back**, whatever its operands are. -/
theorem ofText?_text (i : Instruction) : ofText? i.text = some i := by
  rw [ofText?, text, String.toList_ofList, Statement.ofChars?_chars, Option.bind_some,
    instruction?_assembly]

theorem text_inj {a b : Instruction} : a.text = b.text ↔ a = b := by
  refine ⟨fun h => ?_, congrArg text⟩
  have hread : some a = some b := by rw [← ofText?_text a, ← ofText?_text b, h]
  exact Option.some.inj hread

/-- **Disassembly is unambiguous.**  Two instructions with the same text are the same, whatever their
operands are.  So two words that are decoded and have the same text are the same word. -/
theorem text_unambiguous :
    (∀ a b : Instruction, a.text = b.text ↔ a = b) ∧
      ∀ v w : Opcode, (∃ a b : Instruction, decode v = .ok a ∧ decode w = .ok b ∧
        a.text = b.text) ↔ v = w ∧ v.Listed := by
  refine ⟨fun _ _ => text_inj, fun v w => ⟨?_, ?_⟩⟩
  · rintro ⟨a, b, ha, hb, h⟩
    obtain rfl := text_inj.1 h
    have hv := (decode_eq_ok_iff_code.1 ha).2
    have hw := (decode_eq_ok_iff_code.1 hb).2
    exact ⟨Opcode.toNat_inj.1 (hv.trans hw.symm), listed_iff_exists_decode.2 ⟨a, ha⟩⟩
  · rintro ⟨rfl, hv⟩
    obtain ⟨i, hi⟩ := listed_iff_exists_decode.1 hv
    exact ⟨i, i, hi, hi, rfl⟩

end Instruction

end Chip8
