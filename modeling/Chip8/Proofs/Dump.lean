import Chip8.Proofs.Dump.Lines
import Chip8.Proofs.Lists

/-!
# What a dump shows

A dump is a table: the counters and the timers, the registers, the return addresses and the lines of
the memory.  The number of return addresses differs from machine to machine and so does the number of
lines, but the addresses end with their row and the lines with the text, so each part of the table is
found in its place.  Hence a dump shows the counters, the timers, the registers, the calls and all of
the memory, and machines that agree on them have the same dump.

## What is here

* `Dump.counterRows`, `Dump.registerRows`, `Dump.callRow` — the parts of the table, and what each of
  them determines.
* `Machine.dumpTable`, `Machine.dumpChars_eq` — a dump as a table.
* `Machine.dump_eq_iff` — what two machines with the same dump have in common.
-/

set_option autoImplicit false

namespace Chip8

open Numeral

namespace Dump

/-! ## Counters and timers -/

/-- The rows of the counters and the timers. -/
def counterRows (m : Machine) : Table :=
  [["PC:".toList, markedHex 4 m.pc.toNat, "I:".toList, markedHex 4 m.i.toNat,
      "OP:".toList, markedHex 4 m.opcode.toNat],
    ["DT:".toList, markedHex 2 m.delay.value.toNat, "ST:".toList, markedHex 2 m.sound.value.toNat]]

theorem plain_counterRows (m : Machine) : Table.Plain (counterRows m) := by
  have hhex (width n : Nat) : Table.PlainCell (markedHex width n) :=
    Table.plainCell_markedHex width n
  refine List.forall_mem_cons.2 ⟨⟨List.cons_ne_nil _ _, ?_⟩,
    List.forall_mem_singleton.2 ⟨List.cons_ne_nil _ _, ?_⟩⟩
  all_goals
    simp only [List.forall_mem_cons, hhex, true_and]
    decide

theorem counterRows_inj {m n : Machine} (h : counterRows m = counterRows n) :
    m.pc = n.pc ∧ m.i = n.i ∧ m.opcode = n.opcode ∧
      m.delay.value = n.delay.value ∧ m.sound.value = n.sound.value := by
  simp only [counterRows, List.cons.injEq, markedHex_inj, true_and, and_true, UInt16.toNat_inj,
    UInt8.toNat_inj, Opcode.toNat_inj] at h
  obtain ⟨⟨hpc, hi, hopcode⟩, hdelay, hsound⟩ := h
  exact ⟨hpc, hi, hopcode, hdelay, hsound⟩

/-! ## Registers -/

/-- The cells of a register: its name and its value. -/
def registerCells (r : Registers) (k : Nat) : List (List Char) :=
  ['V' :: hex k ++ [':'], markedHex 2 (r.get k).toNat]

/-- The row of some registers; it ends with an empty cell. -/
def registerRow (r : Registers) (line : List Nat) : List (List Char) :=
  Table.indent (line.flatMap (registerCells r) ++ [[]])

/-- The rows of the registers. -/
def registerRows (r : Registers) : Table :=
  (chunks registersPerLine (List.range Registers.count)).map (registerRow r)

theorem plain_registerRows (r : Registers) : Table.Plain (registerRows r) := by
  refine List.forall_mem_map.2 fun line _ => Table.plainRow_indent fun cell hcell => ?_
  have hname (k : Nat) : Table.PlainCell ('V' :: hex k ++ [':']) :=
    Table.plainCell_append (Table.plainCell_cons (by decide) (Table.plainCell_hex k)) (by decide)
  rcases List.mem_append.1 hcell with hcell | hcell
  · obtain ⟨k, -, hcell⟩ := List.mem_flatMap.1 hcell
    simp only [registerCells, List.mem_cons, List.not_mem_nil, or_false] at hcell
    rcases hcell with rfl | rfl
    · exact hname k
    · exact Table.plainCell_markedHex 2 (r.get k).toNat
  · rw [List.mem_singleton.1 hcell]
    decide

theorem registersChars_eq (r : Registers) : registersChars r = Table.chars (registerRows r) := by
  have hcells (k : Nat) :
      (registerCells r k).flatMap (· ++ [' ']) = registerChars k (r.get k) := by
    simp [registerCells, registerChars]
  have hrow (line : List Nat) :
      Table.rowChars (registerRow r line) =
        '\t' :: line.flatMap fun k => registerChars k (r.get k) := by
    rw [registerRow, Table.rowChars_indent, Table.rowChars_append_empty, List.flatMap_assoc]
    simp only [hcells]
  rw [registersChars, Table.chars, registerRows, List.flatMap_map]
  simp only [hrow, List.cons_append]

/-- Every register stands in one of the rows. -/
theorem registerRows_inj {r s : Registers} (h : registerRows r = registerRows s) : r = s := by
  refine Registers.ext_get fun k hk => ?_
  have hmem : k ∈ (chunks registersPerLine (List.range Registers.count)).flatten := by
    rw [flatten_chunks]
    exact List.mem_range.2 hk
  obtain ⟨line, hmem, hk⟩ := List.mem_flatten.1 hmem
  have hrow : registerRow r line = registerRow s line := List.map_inj_left.1 h line hmem
  have hne (t : Registers) : line.flatMap (registerCells t) ++ [[]] ≠ [] :=
    List.append_ne_nil_of_right_ne_nil _ (List.cons_ne_nil _ _)
  have hline : line.flatMap (registerCells r) = line.flatMap (registerCells s) :=
    List.append_cancel_right (Table.indent_inj (hne r) (hne s) hrow)
  have hlength (k : Nat) : (registerCells r k).length = (registerCells s k).length := rfl
  have hcells : registerCells r k = registerCells s k :=
    Lists.forall_eq_of_flatMap_eq hlength hline k hk
  have hvalue : markedHex 2 (r.get k).toNat = markedHex 2 (s.get k).toNat :=
    (List.cons.inj (List.cons.inj hcells).2).1
  exact UInt8.toNat_inj.1 (markedHex_inj.1 hvalue)

/-! ## Calls -/

/-- The row of the return addresses. -/
def callRow (addresses : List UInt16) : List (List Char) :=
  "Stack:".toList :: addresses.map (markedHex 4 ·.toNat)

theorem plainRow_callRow (addresses : List UInt16) : Table.PlainRow (callRow addresses) := by
  refine ⟨List.cons_ne_nil _ _, List.forall_mem_cons.2 ⟨by decide, List.forall_mem_map.2 ?_⟩⟩
  exact fun address _ => Table.plainCell_markedHex 4 address.toNat

theorem callRow_inj {as bs : List UInt16} (h : callRow as = callRow bs) : as = bs := by
  have haddress (a b : UInt16) (hab : markedHex 4 a.toNat = markedHex 4 b.toNat) : a = b :=
    UInt16.toNat_inj.1 (markedHex_inj.1 hab)
  exact (List.map_inj_right haddress).1 (List.cons.inj h).2

theorem rowChars_callRow (addresses : List UInt16) :
    Table.rowChars (callRow addresses) = "Stack:".toList ++ callsChars addresses := by
  rw [callRow, Table.rowChars_cons, List.flatMap_map, callsChars]

end Dump

/-! ## The whole machine -/

namespace Machine

open Dump

/-- The dump as a table. -/
def dumpTable (m : Machine) : Table :=
  counterRows m ++ (["Registers:".toList] :: registerRows m.v ++
    callRow m.memory.returnAddresses :: ["Memory:".toList] :: (lines m.memory.toList).map Line.cells)

theorem plain_dumpTable (m : Machine) : Table.Plain m.dumpTable := by
  have hregisters : Table.PlainRow ["Registers:".toList] := by decide
  have hmemory : Table.PlainRow ["Memory:".toList] := by decide
  refine List.forall_mem_append.2 ⟨plain_counterRows m, List.forall_mem_append.2 ⟨?_, ?_⟩⟩
  · exact List.forall_mem_cons.2 ⟨hregisters, plain_registerRows m.v⟩
  · exact List.forall_mem_cons.2 ⟨plainRow_callRow _,
      List.forall_mem_cons.2 ⟨hmemory, plain_lines m.memory.toList⟩⟩

theorem chars_counterRows (m : Machine) :
    Table.chars (counterRows m) =
      "PC: ".toList ++ markedHex 4 m.pc.toNat ++ " I: ".toList ++ markedHex 4 m.i.toNat
        ++ " OP: ".toList ++ markedHex 4 m.opcode.toNat
        ++ "\nDT: ".toList ++ markedHex 2 m.delay.value.toNat
        ++ " ST: ".toList ++ markedHex 2 m.sound.value.toNat ++ ['\n'] := by
  simp [counterRows, Table.chars, Table.rowChars_cons]

/-- The text of a dump is that of its table. -/
theorem dumpChars_eq (m : Machine) : m.dumpChars = Table.chars m.dumpTable := by
  have hregisters : "\nRegisters:\n".toList =
      '\n' :: (Table.rowChars ["Registers:".toList] ++ ['\n']) := by decide
  have hmemory : "\nMemory:\n".toList = '\n' :: (Table.rowChars ["Memory:".toList] ++ ['\n']) := by
    decide
  rw [dumpTable, Table.chars_append, Table.chars_append, Table.chars_cons, Table.chars_cons,
    Table.chars_cons, chars_counterRows, rowChars_callRow, ← registersChars_eq, ← memoryChars_eq]
  unfold dumpChars
  rw [hregisters, hmemory]
  simp only [List.append_assoc, List.cons_append, List.nil_append]

theorem dumpTable_inj {m n : Machine} (h : m.dumpTable = n.dumpTable) :
    counterRows m = counterRows n ∧ m.v = n.v ∧ m.memory.calls = n.memory.calls ∧
      m.memory.bytes = n.memory.bytes := by
  obtain ⟨hcounters, h⟩ := List.append_inj h rfl
  obtain ⟨hregisters, h⟩ := List.append_inj h (by simp [registerRows])
  obtain ⟨hcalls, h⟩ := List.cons.inj h
  have hlines := (List.cons.inj h).2
  refine ⟨hcounters, registerRows_inj (List.cons.inj hregisters).2, ?_, ?_⟩
  · exact List.reverse_inj.1 (callRow_inj hcalls)
  · have hlength : m.memory.toList.length = n.memory.toList.length := by
      simp only [Memory.toList, Vector.length_toList]
    exact Vector.toList_inj.1 (bytes_eq_of_cells_eq hlength hlines)

/-- **A dump shows the counters, the timers, the registers, the calls and the memory.** -/
theorem dump_eq_iff (m n : Machine) :
    m.dump = n.dump ↔
      m.pc = n.pc ∧ m.i = n.i ∧ m.opcode = n.opcode ∧
        m.delay.value = n.delay.value ∧ m.sound.value = n.sound.value ∧ m.v = n.v ∧
          m.memory.calls = n.memory.calls ∧ m.memory.bytes = n.memory.bytes := by
  constructor
  case mp =>
    intro h
    have hchars : m.dumpChars = n.dumpChars := String.ofList_inj.1 h
    rw [dumpChars_eq, dumpChars_eq] at hchars
    have htable : m.dumpTable = n.dumpTable :=
      Table.chars_inj m.plain_dumpTable n.plain_dumpTable hchars
    obtain ⟨hcounters, hv, hcalls, hbytes⟩ := dumpTable_inj htable
    obtain ⟨hpc, hi, hopcode, hdelay, hsound⟩ := counterRows_inj hcounters
    exact ⟨hpc, hi, hopcode, hdelay, hsound, hv, hcalls, hbytes⟩
  case mpr =>
    rintro ⟨hpc, hi, hopcode, hdelay, hsound, hv, hcalls, hbytes⟩
    unfold dump dumpChars Memory.returnAddresses Memory.toList
    rw [hpc, hi, hopcode, hdelay, hsound, hv, hcalls, hbytes]

end Machine
end Chip8
