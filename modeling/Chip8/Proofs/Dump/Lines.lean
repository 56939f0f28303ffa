import Chip8.Machine.Dump
import Chip8.Proofs.Text.Tables

/-!
# Reading a memory dump

A dump leaves out lines of zeros, and its mark for them does not say how many there were.  The lines
that are left name their addresses, and this is enough: what lies between one line and the next, and
between the last line and the end of memory, is zero.  So the bytes can be read off the lines, given
only how many there are, and the lines can be read off the text, because they make up a table whose
cells are plain.

## What is here

* `Dump.bytesOf`, `Dump.take_bytesOf` — the bytes of the words on a line.
* `Dump.bytesFrom`, `Dump.bytesFrom_lines` — the bytes that lines stand for.
* `Dump.Line.cells`, `Dump.memoryChars_eq` — the text of a memory as a table.
* `Dump.memoryChars_inj` — the text determines the bytes, however many they are.
-/

set_option autoImplicit false

namespace Chip8

open Numeral

namespace Dump

/-! ## Words -/

/-- The bytes of words, the high byte of each word first. -/
def bytesOf (ws : List Opcode) : List UInt8 :=
  ws.flatMap fun w => [UInt8.ofNat (w.toNat / 256), UInt8.ofNat (w.toNat % 256)]

theorem bytesOf_cons_ofBytes (high low : UInt8) (ws : List Opcode) :
    bytesOf (.ofBytes high low :: ws) = high :: low :: bytesOf ws := by
  have hlow : low.toNat < 256 := low.toNat_lt
  have hdiv : (high.toNat * 256 + low.toNat) / 256 = high.toNat := by omega
  have hmod : (high.toNat * 256 + low.toNat) % 256 = low.toNat := by omega
  rw [bytesOf, List.flatMap_cons, Opcode.toNat_ofBytes, hdiv, hmod, UInt8.ofNat_toNat,
    UInt8.ofNat_toNat]
  rfl

/-- **The words of a piece hold its bytes**; an odd piece is followed by one zero more. -/
theorem take_bytesOf (piece : List UInt8) :
    (bytesOf (wordsOf piece)).take piece.length = piece := by
  fun_induction wordsOf piece with
  | case1 => rfl
  | case2 high =>
    rw [bytesOf_cons_ofBytes]
    rfl
  | case3 high low rest ih =>
    rw [bytesOf_cons_ofBytes, List.length_cons, List.length_cons, List.take_succ_cons,
      List.take_succ_cons, ih]

/-! ## Lines -/

/-- The bytes of a memory of `size` bytes from `address` on, whose lines from there on are given:
what no line shows is zero. -/
def bytesFrom (size address : Nat) : List Line → List UInt8
  | [] => List.replicate (size - address) 0
  | .zeros :: rest => bytesFrom size address rest
  | .words first last ws :: rest =>
    List.replicate (first - address) 0 ++ (bytesOf ws).take (last + 1 - first)
      ++ bytesFrom size (last + 1) rest

/-- The lines of pieces are read back as the pieces.  Lines were left out from `known` to `address`,
so the bytes there were zeros. -/
theorem bytesFrom_linesFrom {pieces : List (List UInt8)} (hne : ∀ piece ∈ pieces, piece ≠ [])
    {known address : Nat} (hknown : known ≤ address) (inZeros : Bool) :
    bytesFrom (address + pieces.flatten.length) known (linesFrom address inZeros pieces) =
      List.replicate (address - known) 0 ++ pieces.flatten := by
  -- While pieces of zeros pass by, `address` moves on and `known` stays; a line that is shown brings
  -- them together again.
  induction pieces generalizing known address inZeros with
  | nil => exact (List.append_nil _).symm
  | cons piece rest ih =>
    obtain ⟨hpiece, hrest⟩ := List.forall_mem_cons.1 hne
    have hsize : address + (piece :: rest).flatten.length =
        (address + piece.length) + rest.flatten.length := by
      rw [List.flatten_cons, List.length_append, Nat.add_assoc]
    rw [hsize, List.flatten_cons, linesFrom]
    split
    case isTrue hzeros =>
      have hpiece : piece = List.replicate piece.length 0 :=
        List.eq_replicate_of_mem fun b hb => by simpa using List.all_eq_true.1 hzeros b hb
      have hgap : List.replicate (address - known) 0 ++ (piece ++ rest.flatten) =
          List.replicate (address + piece.length - known) 0 ++ rest.flatten :=
        calc
          _ = List.replicate (address - known) 0 ++
                (List.replicate piece.length 0 ++ rest.flatten) := by rw [← hpiece]
          _ = List.replicate (address - known + piece.length) 0 ++ rest.flatten := by
                rw [← List.append_assoc, List.replicate_append_replicate]
          _ = _ := by rw [Nat.sub_add_comm hknown]
      rw [hgap]
      cases inZeros with
      | true => exact ih hrest (by omega) true
      | false => exact ih hrest (by omega) true
    case isFalse =>
      have hlast : address + piece.length - 1 + 1 = address + piece.length := by
        have hpos : 0 < piece.length := List.length_pos_iff.2 hpiece
        omega
      rw [bytesFrom, hlast, Nat.add_sub_cancel_left, take_bytesOf, ih hrest (Nat.le_refl _) false,
        Nat.sub_self, List.append_assoc]
      rfl

/-- **The lines of a memory are read back**, whatever its length. -/
theorem bytesFrom_lines (bytes : List UInt8) : bytesFrom bytes.length 0 (lines bytes) = bytes := by
  have hpieces : (chunks lineSize bytes).flatten = bytes := flatten_chunks lineSize bytes
  have hne : ∀ piece ∈ chunks lineSize bytes, piece ≠ [] := fun _ => ne_nil_of_mem_chunks
  have hread := bytesFrom_linesFrom hne (Nat.le_refl 0) false
  rwa [hpieces, Nat.zero_add] at hread

/-! ## Text -/

/-- The cells of a line. -/
def Line.cells : Line → List (List Char)
  | zeros => Table.indent [['.', '.', '.']]
  | words first last ws =>
    Table.indent
      (markedHex 4 first :: ['-'] :: markedHex 4 last :: [':'] :: ws.map (markedHex 4 ·.toNat))

theorem Line.chars_eq (l : Line) : l.chars = Table.rowChars l.cells ++ ['\n'] := by
  cases l with
  | zeros => rfl
  | words first last ws =>
    simp [Line.chars, Line.cells, Table.rowChars_indent, Table.rowChars_cons, List.flatMap_map]

theorem Line.plainRow_cells (l : Line) : Table.PlainRow l.cells := by
  cases l with
  | zeros =>
    rw [cells]
    exact Table.plainRow_indent (by decide)
  | words first last ws =>
    rw [cells]
    refine Table.plainRow_indent fun cell hcell => ?_
    simp only [List.mem_cons, List.mem_map] at hcell
    rcases hcell with rfl | rfl | rfl | rfl | ⟨w, -, rfl⟩
    · exact Table.plainCell_markedHex 4 first
    · decide
    · exact Table.plainCell_markedHex 4 last
    · decide
    · exact Table.plainCell_markedHex 4 w.toNat

theorem Line.cells_inj {l l' : Line} (h : l.cells = l'.cells) : l = l' := by
  cases l with
  | zeros =>
    cases l' with
    | zeros => rfl
    | words => exact absurd (congrArg List.length h) (by simp [cells, Table.indent])
  | words first last ws =>
    cases l' with
    | zeros => exact absurd (congrArg List.length h) (by simp [cells, Table.indent])
    | words first' last' ws' =>
      have hcells := Table.indent_inj (List.cons_ne_nil _ _) (List.cons_ne_nil _ _) h
      simp only [List.cons.injEq, markedHex_inj, true_and] at hcells
      obtain ⟨rfl, rfl, hws⟩ := hcells
      have hwords (v w : Opcode) (hvw : markedHex 4 v.toNat = markedHex 4 w.toNat) : v = w :=
        Opcode.toNat_inj.1 (markedHex_inj.1 hvw)
      rw [(List.map_inj_right hwords).1 hws]

/-- The text of a memory is a table. -/
theorem memoryChars_eq (bytes : List UInt8) :
    memoryChars bytes = Table.chars ((lines bytes).map Line.cells) := by
  rw [memoryChars, funext Line.chars_eq, Table.chars, List.flatMap_map]

theorem plain_lines (bytes : List UInt8) : Table.Plain ((lines bytes).map Line.cells) :=
  List.forall_mem_map.2 fun l _ => l.plainRow_cells

/-- Lines of the same text are the same, and so are the bytes that they come from. -/
theorem bytes_eq_of_cells_eq {bs cs : List UInt8} (hlength : bs.length = cs.length)
    (h : (lines bs).map Line.cells = (lines cs).map Line.cells) : bs = cs := by
  have hlines : lines bs = lines cs := (List.map_inj_right fun _ _ => Line.cells_inj).1 h
  rw [← bytesFrom_lines bs, hlength, hlines, bytesFrom_lines]

/-- **The text of a memory determines its bytes**, however many they are. -/
theorem memoryChars_inj {bs cs : List UInt8} (hlength : bs.length = cs.length)
    (h : memoryChars bs = memoryChars cs) : bs = cs := by
  rw [memoryChars_eq, memoryChars_eq] at h
  exact bytes_eq_of_cells_eq hlength (Table.chars_inj (plain_lines bs) (plain_lines cs) h)

end Dump
end Chip8
