import Chip8.Sprite

/-!
# Drawing without faults

`Screen.plot` goes by indices and checks every access: a pixel that is missing would be a fault.
No pixel ever is, because both axes wrap around.  So drawing comes to flipping pixels that lie on
the screen, where nothing can fail.

## What is here

* `Screen.flipAll` — flips pixels of the screen one after the other; `lit_flipAll` and
  `flipAll_snd` say what that does to each of them, and what the flag tells.
* `Sprite.cells`, `Screen.draw` — a sprite as pixels of the screen, and drawing it.
* `Screen.plot_eq_draw` — no access of a drawing fails.
* `Screen.flipAll_append` — pixels can be flipped in portions.
* `Screen.buffer_flip`, `Screen.isOn_eq_buffer` — drawing seen from the bytes that a host samples.
-/

set_option autoImplicit false

namespace Chip8

namespace Screen

/-! ## Flips of pixels on the screen -/

/-- Flips pixels one after the other; the flag tells whether one of them was on. -/
def flipAll (s : Screen) : List (Fin 2048) → Screen × Bool
  | [] => (s, false)
  | i :: rest =>
    let after := (s.flip i).flipAll rest
    (after.1, s.lit i || after.2)

/-- After several flips a pixel has changed if it was flipped an odd number of times. -/
theorem lit_flipAll (s : Screen) (cells : List (Fin 2048)) (j : Fin 2048) :
    (s.flipAll cells).1.lit j = (s.lit j ^^ decide (cells.count j % 2 = 1)) := by
  induction cells generalizing s with
  | nil => simp [flipAll]
  | cons i rest ih =>
    rw [flipAll]
    simp only [ih, lit_flip]
    by_cases h : j = i
    · subst h
      rw [if_pos rfl, List.count_cons_self]
      rcases Nat.mod_two_eq_zero_or_one (rest.count j) with hc | hc
      · rw [hc, show (rest.count j + 1) % 2 = 1 by omega]
        cases s.lit j <;> rfl
      · rw [hc, show (rest.count j + 1) % 2 = 0 by omega]
        cases s.lit j <;> rfl
    · rw [if_neg h, List.count_cons_of_ne (Ne.symm h)]

/-- If no pixel is flipped twice, the flag tells whether one of them was on before. -/
theorem flipAll_snd {cells : List (Fin 2048)} (h : cells.Nodup) (s : Screen) :
    (s.flipAll cells).2 = cells.any fun i => s.lit i := by
  induction cells generalizing s with
  | nil => rfl
  | cons i rest ih =>
    obtain ⟨hi, hrest⟩ := List.nodup_cons.1 h
    rw [flipAll]
    simp only [ih hrest, List.any_cons]
    congr 1
    rw [Bool.eq_iff_iff, List.any_eq_true, List.any_eq_true]
    refine exists_congr fun j => and_congr_right fun hj => ?_
    have hne : j ≠ i := fun e => hi (e ▸ hj)
    rw [lit_flip, if_neg hne]

/-- Flipping pixels in two portions. -/
theorem flipAll_append (s : Screen) (cells more : List (Fin 2048)) :
    s.flipAll (cells ++ more) =
      (((s.flipAll cells).1.flipAll more).1,
        (s.flipAll cells).2 || ((s.flipAll cells).1.flipAll more).2) := by
  induction cells generalizing s with
  | nil => simp [flipAll]
  | cons i rest ih => simp only [List.cons_append, flipAll, ih, Bool.or_assoc]

/-! ## Checked accesses -/

theorem isOn_val (s : Screen) (i : Fin 2048) : s.isOn i = .ok (s.lit i) :=
  dif_pos i.isLt

theorem toggle_val (s : Screen) (i : Fin 2048) : s.toggle i = .ok (s.flip i) :=
  dif_pos i.isLt

/-- Pixels of the screen are never missing. -/
theorem plotAll_map_val (s : Screen) (cells : List (Fin 2048)) :
    s.plotAll (cells.map Fin.val) = ((s.flipAll cells).1, (s.flipAll cells).2, .ok ()) := by
  induction cells generalizing s with
  | nil => rfl
  | cons i rest ih => simp only [List.map_cons, plotAll, isOn_val, toggle_val, ih, flipAll]

end Screen

/-! ## Sprites -/

namespace Sprite

/-- The pixels of the screen that one row covers when its left end is at `(x, y)`. -/
def rowCells (x y : Nat) (row : UInt8) : List (Fin 2048) :=
  ((List.range rowWidth).filter (covers row)).map fun column =>
    ⟨Screen.index (x + column) y, Screen.index_lt _ _⟩

/-- The pixels of the screen that a sprite covers when its upper left end is at `(x, y)`, row by
row and from left to right. -/
def cells (x y : Nat) : List UInt8 → List (Fin 2048)
  | [] => []
  | row :: below => rowCells x y row ++ cells x (y + 1) below

theorem map_val_rowCells (x y : Nat) (row : UInt8) :
    (rowCells x y row).map Fin.val = rowIndices x y row := by
  rw [rowCells, rowIndices, List.map_map]
  rfl

/-- **No coordinate leads off the screen.** -/
theorem map_val_cells (x y : Nat) (rows : List UInt8) :
    (cells x y rows).map Fin.val = indices x y rows := by
  induction rows generalizing y with
  | nil => rfl
  | cons row below ih => rw [cells, indices, List.map_append, map_val_rowCells, ih]

end Sprite

namespace Screen

/-- Draws a sprite: the new screen, and whether a lit pixel was switched off. -/
def draw (s : Screen) (x y : Nat) (rows : List UInt8) : Screen × Bool :=
  s.flipAll (Sprite.cells x y rows)

/-- **No access of a drawing fails**, wherever the sprite is drawn. -/
theorem plot_eq_draw (s : Screen) (x y : Nat) (rows : List UInt8) :
    s.plot x y rows = ((s.draw x y rows).1, (s.draw x y rows).2, .ok ()) := by
  rw [plot, ← Sprite.map_val_cells, plotAll_map_val, draw]

/-! ## The bytes that a host samples -/

theorem length_buffer (s : Screen) : s.buffer.length = 2048 := by
  rw [buffer, List.length_map, Vector.length_toList]

theorem getElem?_buffer (s : Screen) (i : Fin 2048) :
    s.buffer[i.val]? = some (if s.lit i then 1 else 0) := by
  have h : s.pixels.toList[i.val]? = some (s.lit i) := by simp [lit]
  rw [buffer, List.getElem?_map, h]
  rfl

/-- Every byte is `0` or `1`. -/
theorem mem_buffer {s : Screen} {b : UInt8} (h : b ∈ s.buffer) : b = 0 ∨ b = 1 := by
  obtain ⟨on, -, rfl⟩ := List.mem_map.1 h
  cases on
  · exact .inl rfl
  · exact .inr rfl

/-- A pixel is on if its byte is `1`. -/
theorem isOn_eq_buffer (s : Screen) (i : Fin 2048) :
    s.isOn i = .ok (s.buffer[i.val]? == some 1) := by
  rw [isOn_val, getElem?_buffer]
  cases s.lit i <;> rfl

/-- A flip changes the lowest bit of its byte, and no other byte. -/
theorem buffer_flip (s : Screen) (i : Fin 2048) :
    (s.flip i).buffer = s.buffer.modify i.val (· ^^^ 1) := by
  refine List.ext_getElem? fun k => ?_
  rcases Nat.lt_or_ge k 2048 with hk | hk
  · rw [List.getElem?_modify, getElem?_buffer _ ⟨k, hk⟩, getElem?_buffer _ ⟨k, hk⟩, lit_flip]
    by_cases h : (⟨k, hk⟩ : Fin 2048) = i
    · subst h
      rw [if_pos rfl]
      cases s.lit ⟨k, hk⟩ <;> simp
    · have hv : i.val ≠ k := fun e => h (Fin.ext e.symm)
      simp [if_neg h, hv]
  · rw [List.getElem?_eq_none ((s.flip i).length_buffer ▸ hk), List.getElem?_eq_none]
    rwa [List.length_modify, length_buffer]

end Screen
end Chip8
