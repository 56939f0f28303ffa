import Chip8.Proofs.Text.Numerals

/-!
# Tables

A table is a list of rows, and a row a list of cells.  It is written down with a blank between the
cells of a row and an end of line behind each row.  If no cell contains either of these characters
and no row is without cells, the table can be read off its text.

## What is here

* `Table.rowChars`, `Table.chars` — the text of a row and of a table.
* `Table.indent` — a row that is set in by a tab.
* `Table.Plain`, `Table.ofChars_chars` — which tables are read back.
* `Table.plainCell_hex`, `Table.plainCell_markedHex` — numbers make up plain cells.
-/

set_option autoImplicit false

namespace Chip8

/-- The rows of a table, each with its cells. -/
abbrev Table := List (List (List Char))

namespace Table

open Numeral

/-! ## Writing -/

/-- The text of a row. -/
def rowChars (cells : List (List Char)) : List Char := [' '].intercalate cells

/-- The text of a table. -/
def chars (t : Table) : List Char := t.flatMap fun row => rowChars row ++ ['\n']

/-- The row with a tab in front of its first cell. -/
def indent : List (List Char) → List (List Char)
  | [] => [['\t']]
  | cell :: cells => ('\t' :: cell) :: cells

theorem rowChars_cons (cell : List Char) (cells : List (List Char)) :
    rowChars (cell :: cells) = cell ++ cells.flatMap (' ' :: ·) := by
  induction cells generalizing cell with
  | nil => rw [rowChars, List.intercalate_singleton, List.flatMap_nil, List.append_nil]
  | cons next cells ih =>
    have hnext : [' '].intercalate (next :: cells) = next ++ cells.flatMap (' ' :: ·) := ih next
    rw [rowChars, List.intercalate_cons_cons, hnext, List.flatMap_cons, List.append_assoc]
    rfl

/-- With an empty cell at its end, a row has a blank behind each of the others. -/
theorem rowChars_append_empty (cells : List (List Char)) :
    rowChars (cells ++ [[]]) = cells.flatMap (· ++ [' ']) := by
  induction cells with
  | nil => rfl
  | cons cell cells ih =>
    have hne : cells ++ [[]] ≠ [] := List.append_ne_nil_of_right_ne_nil _ (List.cons_ne_nil _ _)
    rw [List.cons_append, rowChars, List.intercalate_cons_of_ne_nil hne, List.flatMap_cons, ← ih]
    rfl

theorem rowChars_indent (cells : List (List Char)) :
    rowChars (indent cells) = '\t' :: rowChars cells := by
  cases cells with
  | nil => rfl
  | cons cell cells =>
    rw [indent, rowChars_cons, rowChars_cons]
    rfl

theorem indent_inj {a b : List (List Char)} (ha : a ≠ []) (hb : b ≠ []) (h : indent a = indent b) :
    a = b := by
  cases a with
  | nil => exact absurd rfl ha
  | cons cell cells =>
    cases b with
    | nil => exact absurd rfl hb
    | cons cell' cells' =>
      obtain ⟨hcell, hcells⟩ := List.cons.inj h
      rw [List.tail_eq_of_cons_eq hcell, hcells]

theorem chars_cons (row : List (List Char)) (t : Table) :
    chars (row :: t) = rowChars row ++ '\n' :: chars t := by
  rw [chars, List.flatMap_cons, List.append_assoc]
  rfl

theorem chars_append (t u : Table) : chars (t ++ u) = chars t ++ chars u := List.flatMap_append

/-! ## Reading -/

/-- The table that a text stands for. -/
def ofChars (cs : List Char) : Table := (cs.splitOn '\n').dropLast.map fun line => line.splitOn ' '

/-- A cell without blanks and ends of lines. -/
def PlainCell (cell : List Char) : Prop := ' ' ∉ cell ∧ '\n' ∉ cell

instance (cell : List Char) : Decidable (PlainCell cell) :=
  inferInstanceAs (Decidable (_ ∧ _))

/-- A row of plain cells, and not without any. -/
def PlainRow (row : List (List Char)) : Prop := row ≠ [] ∧ ∀ cell ∈ row, PlainCell cell

instance (row : List (List Char)) : Decidable (PlainRow row) :=
  inferInstanceAs (Decidable (_ ∧ _))

/-- **A table that can be read back.** -/
def Plain (t : Table) : Prop := ∀ row ∈ t, PlainRow row

/-- A row of plain cells stays on its line. -/
theorem newline_notMem_rowChars {cells : List (List Char)} (h : ∀ cell ∈ cells, PlainCell cell) :
    '\n' ∉ rowChars cells := by
  cases cells with
  | nil => exact List.not_mem_nil
  | cons cell cells =>
    obtain ⟨hcell, hcells⟩ := List.forall_mem_cons.1 h
    rw [rowChars_cons, List.mem_append, List.mem_flatMap]
    rintro (hmem | ⟨next, hnext, hmem⟩)
    · exact hcell.2 hmem
    · rcases List.mem_cons.1 hmem with hblank | hmem
      · exact absurd hblank (by decide)
      · exact (hcells next hnext).2 hmem

/-- The lines of a plain table are its rows. -/
theorem splitOn_chars {t : Table} (h : Plain t) :
    (chars t).splitOn '\n' = t.map rowChars ++ [[]] := by
  induction t with
  | nil => exact List.splitOn_nil '\n'
  | cons row t ih =>
    obtain ⟨⟨-, hrow⟩, ht⟩ := List.forall_mem_cons.1 h
    rw [chars_cons, List.splitOn_append_cons_self_of_not_mem (newline_notMem_rowChars hrow), ih ht]
    rfl

/-- **A plain table is read back.** -/
theorem ofChars_chars {t : Table} (h : Plain t) : ofChars (chars t) = t := by
  rw [ofChars, splitOn_chars h, List.dropLast_concat, List.map_map]
  refine (List.map_congr_left fun row hrow => ?_).trans (List.map_id t)
  obtain ⟨hne, hcells⟩ := h row hrow
  exact List.splitOn_intercalate ' ' (fun cell hcell => (hcells cell hcell).1) hne

theorem chars_inj {t u : Table} (ht : Plain t) (hu : Plain u) (h : chars t = chars u) : t = u := by
  rw [← ofChars_chars ht, h, ofChars_chars hu]

/-! ## Plain cells -/

theorem plainCell_append {a b : List Char} (ha : PlainCell a) (hb : PlainCell b) :
    PlainCell (a ++ b) :=
  ⟨List.not_mem_append ha.1 hb.1, List.not_mem_append ha.2 hb.2⟩

theorem plainCell_cons {c : Char} {cell : List Char} (hc : PlainCell [c]) (h : PlainCell cell) :
    PlainCell (c :: cell) :=
  plainCell_append hc h

theorem plainRow_indent {row : List (List Char)} (h : ∀ cell ∈ row, PlainCell cell) :
    PlainRow (indent row) := by
  have htab : PlainCell ['\t'] := by decide
  cases row with
  | nil => exact ⟨List.cons_ne_nil _ _, List.forall_mem_singleton.2 htab⟩
  | cons cell cells =>
    obtain ⟨hcell, hcells⟩ := List.forall_mem_cons.1 h
    exact ⟨List.cons_ne_nil _ _, List.forall_mem_cons.2 ⟨plainCell_cons htab hcell, hcells⟩⟩

theorem plainCell_hex (n : Nat) : PlainCell (hex n) :=
  ⟨notMem_hex (by decide) n, notMem_hex (by decide) n⟩

theorem plainCell_markedHex (width n : Nat) : PlainCell (markedHex width n) :=
  ⟨notMem_markedHex (by decide) (by decide) width n,
    notMem_markedHex (by decide) (by decide) width n⟩

end Table
end Chip8
