import Chip8.Proofs.Drawing
import Mathlib.Algebra.GroupWithZero.Nat

/-!
# Which pixels a sprite covers

`Sprite.cells` lists what a sprite covers in drawing order, which says little about a given pixel.
Seen from the screen it is simpler.  A pixel has a column and a row, and how far these lie to the
right of and below the upper left end of the sprite, counted around the screen, picks one bit of the
sprite: the pixel is covered if there is such a bit and it is set.

A sprite has eight columns, and no more rows than the screen, so it does not overlap itself on its
way around the screen.  Hence no pixel is flipped twice, and a drawing comes to one exclusive or for
each pixel.

## What is here

* `Screen.cell` — the pixel in a column and a row; every index is that of one pixel.
* `Screen.distance`, `Sprite.shows` — whether a sprite covers a pixel.
* `Sprite.cell_mem_cells`, `Sprite.nodup_cells` — the list that is drawn holds what is covered, once.
* `Screen.lit_draw`, `Screen.draw_snd` — a drawing, pixel by pixel, and its flag.
-/

set_option autoImplicit false

namespace Chip8

namespace Screen

/-! ## Columns and rows -/

/-- The pixel in a column and a row. -/
def cell (c : Fin 64) (r : Fin 32) : Fin 2048 := ⟨r.val * 64 + c.val, by omega⟩

theorem cell_inj {c d : Fin 64} {r s : Fin 32} : cell c r = cell d s ↔ c = d ∧ r = s := by
  simp only [cell, Fin.ext_iff]
  omega

/-- Every pixel lies in a column and a row. -/
theorem exists_cell (p : Fin 2048) : ∃ c r, p = cell c r := by
  refine ⟨⟨p.val % 64, by omega⟩, ⟨p.val / 64, by omega⟩, Fin.ext ?_⟩
  simp only [cell]
  omega

/-- Screens are equal if every pixel of them is. -/
theorem ext_lit {s t : Screen} (h : ∀ p, s.lit p = t.lit p) : s = t := by
  cases s
  cases t
  exact congrArg Screen.mk (Vector.ext fun k hk => h ⟨k, hk⟩)

instance neZero_columns : NeZero 64 := ⟨by decide⟩

instance neZero_rows : NeZero 32 := ⟨by decide⟩

/-- How many steps lead from coordinate `x` to `c`, going up by one and around at the end. -/
def distance {n : Nat} [NeZero n] (x : Nat) (c : Fin n) : Nat := (c - Fin.ofNat n x).val

theorem mod_of_lt_two_mul {a n : Nat} (h : a < 2 * n) : a % n = if a < n then a else a - n := by
  split
  next hlt => exact Nat.mod_eq_of_lt hlt
  next hge =>
    rw [Nat.mod_eq_sub_mod (Nat.le_of_not_lt hge)]
    exact Nat.mod_eq_of_lt (by omega)

/-- The coordinate that lies `j` steps from `x`. -/
theorem eq_ofNat_add_iff {n : Nat} [NeZero n] (x : Nat) {j : Nat} (hj : j < n) {c : Fin n} :
    c = Fin.ofNat n (x + j) ↔ distance x c = j := by
  have hx : x % n < n := Nat.mod_lt x (Nat.pos_of_neZero n)
  have hc := c.isLt
  have hdistance : distance x c = (n - x % n + c.val) % n := rfl
  have hup : (x % n + j) % n = _ := mod_of_lt_two_mul (by omega)
  have hback : (n - x % n + c.val) % n = _ := mod_of_lt_two_mul (by omega)
  rw [hdistance, hback, Fin.ext_iff, Fin.val_ofNat, ← Nat.mod_add_mod, hup]
  split <;> split <;> omega

/-- Fewer steps than once around lead to different coordinates. -/
theorem ofNat_add_inj {n : Nat} [NeZero n] {x i j : Nat} (hi : i < n) (hj : j < n)
    (h : Fin.ofNat n (x + i) = Fin.ofNat n (x + j)) : i = j :=
  calc i = distance x (Fin.ofNat n (x + i)) := ((eq_ofNat_add_iff x hi).1 rfl).symm
    _ = distance x (Fin.ofNat n (x + j)) := by rw [h]
    _ = j := (eq_ofNat_add_iff x hj).1 rfl

end Screen

namespace Sprite

open Screen

/-! ## Covered pixels -/

/-- Whether a sprite with its upper left end at `(x, y)` covers the pixel in a column and a row:
the distances to the right and down pick one of its bits, and that is set. -/
def shows (x y : Nat) (rows : List UInt8) (c : Fin 64) (r : Fin 32) : Bool :=
  decide (distance x c < rowWidth) && rows[distance y r]?.any fun row => covers row (distance x c)

variable {x y : Nat} {row : UInt8} {rows : List UInt8} {c : Fin 64} {r : Fin 32}

/-- The pixels of a row, each in its column and row, counted around the screen. -/
theorem rowCells_eq (x y : Nat) (row : UInt8) :
    rowCells x y row = ((List.range rowWidth).filter (covers row)).map fun j =>
      cell (Fin.ofNat 64 (x + j)) (Fin.ofNat 32 y) :=
  rfl

theorem mem_rowCells {p : Fin 2048} :
    p ∈ rowCells x y row ↔
      ∃ j, j < rowWidth ∧ covers row j = true ∧
        p = cell (Fin.ofNat 64 (x + j)) (Fin.ofNat 32 y) := by
  simp only [rowCells_eq, List.mem_map, List.mem_filter, List.mem_range, and_assoc]
  exact exists_congr fun j => and_congr_right fun _ => and_congr_right fun _ => eq_comm

/-- The pixels of a sprite, from its bits. -/
theorem mem_cells {p : Fin 2048} :
    p ∈ cells x y rows ↔
      ∃ j k, j < rowWidth ∧ (rows[k]?.any fun row => covers row j) = true ∧
        p = cell (Fin.ofNat 64 (x + j)) (Fin.ofNat 32 (y + k)) := by
  induction rows generalizing y with
  | nil => simp [cells]
  | cons row below ih =>
    rw [cells, List.mem_append, mem_rowCells, ih]
    constructor
    · rintro (⟨j, hj, hrow, rfl⟩ | ⟨j, k, hj, hbit, rfl⟩)
      · exact ⟨j, 0, hj, hrow, rfl⟩
      · exact ⟨j, k + 1, hj, hbit, by rw [Nat.add_assoc, Nat.add_comm 1 k]⟩
    · rintro ⟨j, k, hj, hbit, rfl⟩
      cases k with
      | zero => exact .inl ⟨j, hj, hbit, rfl⟩
      | succ k => exact .inr ⟨j, k, hj, hbit, by rw [Nat.add_assoc, Nat.add_comm 1 k]⟩

theorem lt_length_of_any {k : Nat} {p : UInt8 → Bool} (h : rows[k]?.any p = true) :
    k < rows.length := by
  obtain ⟨row, hrow, -⟩ := (Option.any_eq_true p _).1 h
  exact (List.getElem?_eq_some_iff.1 hrow).1

/-- **The list that is drawn holds the covered pixels.** -/
theorem cell_mem_cells (h : rows.length ≤ 32) :
    cell c r ∈ cells x y rows ↔ shows x y rows c r = true := by
  rw [mem_cells, shows, Bool.and_eq_true, decide_eq_true_iff]
  constructor
  · rintro ⟨j, k, hj, hbit, hcell⟩
    have hk : k < rows.length := lt_length_of_any hbit
    obtain ⟨hc, hr⟩ := cell_inj.1 hcell
    rw [(eq_ofNat_add_iff x (Nat.lt_trans hj (by decide))).1 hc,
      (eq_ofNat_add_iff y (Nat.lt_of_lt_of_le hk h)).1 hr]
    exact ⟨hj, hbit⟩
  · rintro ⟨hj, hbit⟩
    refine ⟨distance x c, distance y r, hj, hbit, cell_inj.2 ⟨?_, ?_⟩⟩
    · exact (eq_ofNat_add_iff x (Fin.isLt _)).2 rfl
    · exact (eq_ofNat_add_iff y (Fin.isLt _)).2 rfl

/-! ## No pixel is covered twice -/

/-- Eight columns do not lead once around the screen. -/
theorem nodup_rowCells (x y : Nat) (row : UInt8) : (rowCells x y row).Nodup := by
  have hcolumns : ((List.range rowWidth).filter (covers row)).Nodup :=
    List.nodup_range.sublist List.filter_sublist
  rw [rowCells_eq]
  refine List.pairwise_map.2 (hcolumns.imp_of_mem fun {i j} hi hj hne heq => hne ?_)
  have hi' : i < rowWidth := List.mem_range.1 (List.mem_filter.1 hi).1
  have hj' : j < rowWidth := List.mem_range.1 (List.mem_filter.1 hj).1
  exact ofNat_add_inj (Nat.lt_trans hi' (by decide)) (Nat.lt_trans hj' (by decide))
    (cell_inj.1 heq).1

/-- **No pixel is covered twice** by a sprite that is no higher than the screen. -/
theorem nodup_cells (x : Nat) {y : Nat} {rows : List UInt8} (h : rows.length ≤ 32) :
    (cells x y rows).Nodup := by
  induction rows generalizing y with
  | nil => exact List.nodup_nil
  | cons row below ih =>
    have hbelow : below.length + 1 ≤ 32 := h
    rw [cells, List.nodup_append]
    refine ⟨nodup_rowCells x y row, ih (by omega), ?_⟩
    -- the rows below come back to row `y` only after going around the screen
    rintro p hp q hq rfl
    obtain ⟨i, -, -, rfl⟩ := mem_rowCells.1 hp
    obtain ⟨j, k, -, hbit, hcell⟩ := mem_cells.1 hq
    have hk : k < below.length := lt_length_of_any hbit
    have hrow := (cell_inj.1 hcell).2
    rw [Nat.add_assoc] at hrow
    have hzero := ofNat_add_inj (x := y) (i := 0) (j := 1 + k) (by omega) (by omega) hrow
    omega

end Sprite

/-! ## Drawings, pixel by pixel -/

namespace Screen

variable {x y : Nat} {rows : List UInt8}

/-- **A drawing changes the covered pixels**, and no others. -/
theorem lit_draw (s : Screen) (h : rows.length ≤ 32) (c : Fin 64) (r : Fin 32) :
    (s.draw x y rows).1.lit (cell c r) = (s.lit (cell c r) ^^ Sprite.shows x y rows c r) := by
  rw [draw, lit_flipAll, (Sprite.nodup_cells x h).count]
  simp only [Sprite.cell_mem_cells h]
  cases Sprite.shows x y rows c r <;> rfl

/-- **The flag of a drawing** tells whether a covered pixel was lit. -/
theorem draw_snd (s : Screen) (h : rows.length ≤ 32) :
    (s.draw x y rows).2 = true ↔
      ∃ c r, Sprite.shows x y rows c r = true ∧ s.lit (cell c r) = true := by
  rw [draw, flipAll_snd (Sprite.nodup_cells x h), List.any_eq_true]
  constructor
  · rintro ⟨p, hp, hlit⟩
    obtain ⟨c, r, rfl⟩ := exists_cell p
    exact ⟨c, r, (Sprite.cell_mem_cells h).1 hp, hlit⟩
  · rintro ⟨c, r, hshows, hlit⟩
    exact ⟨cell c r, (Sprite.cell_mem_cells h).2 hshows, hlit⟩

end Screen
end Chip8
