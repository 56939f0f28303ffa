import Chip8.Proofs.Drawing
import Chip8.Screen.Event
import Mathlib.Data.List.Induction

/-!
# The history of a screen

A pixel is on if it was flipped an odd number of times since the screen was last cleared; nothing else
of its history counts (`togglesSinceClear`).

A host sees three pictures of the screen.  The first is a row of bytes, which a flip changes by an
exclusive or and whose value `1` alone counts as on.  It agrees with the pixels because no byte is ever
anything but `0` or `1` (`buffer_run`).  The second is a plane of 64 columns and 32 rows without
borders, in which each byte has one place (`index_eq_iff`, `exists_index`).  The third is a list of
rows, in which it has the same place (`exists_row`).

## What is here

* `Screen.togglesSinceClear`, `Screen.lit_act`, `Screen.lit_run` — the pixels after a list of events.
* `Screen.bytesAfter`, `Screen.buffer_act`, `Screen.buffer_run` — the bytes that a host keeps.
* `Screen.result_act`, `Screen.act_of_error` — which events fail, and what that leaves.
* `Screen.index_eq_iff`, `Screen.exists_index`, `Screen.exists_row` — places in the plane and in rows.
* `Screen.screen_history` — the history of a screen.
-/

set_option autoImplicit false

namespace Chip8
namespace Screen

variable {s : Screen}

/-! ## What a history says -/

/-- **How often a pixel was flipped** since the screen was last cleared. -/
def togglesSinceClear (es : List Event) (i : Nat) : Nat :=
  (es.reverse.takeWhile (· ≠ .clear)).count (.toggle i)

/-- The bytes that a host keeps, after an event: a flip is an exclusive or, and a byte that is missing
cannot be flipped. -/
def bytesAfter (bytes : List UInt8) : Event → List UInt8
  | .toggle i => bytes.modify i (· ^^^ 1)
  | .clear => bytes.map fun _ => 0

/-! ## One event -/

theorem toggle_of_le {i : Nat} (h : 2048 ≤ i) : s.toggle i = .error (.pixelOutOfBounds i 2048) :=
  dif_neg (Nat.not_lt.2 h)

theorem lit_dark (i : Fin 2048) : dark.lit i = false :=
  Vector.getElem_replicate _

/-- **A pixel after an event.** -/
theorem lit_act (e : Event) (i : Fin 2048) :
    (s.act e).1.lit i = if e = .clear then false else (s.lit i ^^ decide (e = .toggle i)) := by
  cases e with
  | clear => exact lit_dark i
  | toggle j =>
    rw [if_neg (by simp)]
    rcases Nat.lt_or_ge j 2048 with hj | hj
    · simp only [act, s.toggle_val ⟨j, hj⟩, lit_flip]
      by_cases h : i = ⟨j, hj⟩
      · subst h
        simp
      · have hne : j ≠ i := fun heq => h (Fin.ext heq.symm)
        simp [h, hne]
    · have hne : j ≠ i := by omega
      simp [act, toggle_of_le hj, hne]

/-- **The bytes after an event.** -/
theorem buffer_act (e : Event) : (s.act e).1.buffer = bytesAfter s.buffer e := by
  cases e with
  | clear =>
    rw [bytesAfter, List.map_const', length_buffer, act, dark, buffer, Vector.toList_replicate,
      List.map_replicate]
    rfl
  | toggle i =>
    rcases Nat.lt_or_ge i 2048 with hi | hi
    · simp only [act, s.toggle_val ⟨i, hi⟩]
      exact s.buffer_flip ⟨i, hi⟩
    · simp only [act, toggle_of_le hi, bytesAfter]
      exact (List.modify_eq_self (s.length_buffer ▸ hi)).symm

/-- **Which events fail.** -/
theorem result_act (e : Event) :
    (s.act e).2 =
      match e with
      | .toggle i => if i < 2048 then .ok () else .error (.pixelOutOfBounds i 2048)
      | .clear => .ok () := by
  cases e with
  | clear => rfl
  | toggle i =>
    rcases Nat.lt_or_ge i 2048 with hi | hi
    · simp only [act, s.toggle_val ⟨i, hi⟩, if_pos hi]
    · simp only [act, toggle_of_le hi, if_neg (Nat.not_lt.2 hi)]

/-- **An event that fails changes nothing.** -/
theorem act_of_error {e : Event} {f : Fault} (h : (s.act e).2 = .error f) : (s.act e).1 = s := by
  cases e with
  | clear => cases h
  | toggle i =>
    rcases Nat.lt_or_ge i 2048 with hi | hi
    · rw [result_act] at h
      simp only [if_pos hi] at h
      cases h
    · simp only [act, toggle_of_le hi]

/-! ## Lists of events -/

theorem run_concat (es : List Event) (e : Event) : s.run (es ++ [e]) = ((s.run es).act e).1 :=
  List.foldl_append

theorem togglesSinceClear_concat (es : List Event) (e : Event) (i : Nat) :
    togglesSinceClear (es ++ [e]) i =
      if e = .clear then 0 else togglesSinceClear es i + if e = .toggle i then 1 else 0 := by
  rw [togglesSinceClear, List.reverse_concat]
  by_cases hclear : e = .clear
  · rw [if_pos hclear, List.takeWhile_cons_of_neg (by simpa using hclear), List.count_nil]
  · rw [if_neg hclear, List.takeWhile_cons_of_pos (by simpa using hclear), List.count_cons,
      ← togglesSinceClear]
    simp only [beq_iff_eq]

/-- **A pixel is on if it was flipped an odd number of times** since the screen was last cleared. -/
theorem lit_run (es : List Event) (i : Fin 2048) :
    (dark.run es).lit i = decide (togglesSinceClear es i % 2 = 1) := by
  induction es using List.reverseRecOn with
  | nil => exact lit_dark i
  | append_singleton es e ih =>
    rw [run_concat, lit_act, ih, togglesSinceClear_concat]
    by_cases hclear : e = .clear
    · rw [if_pos hclear, if_pos hclear]
      rfl
    · rw [if_neg hclear, if_neg hclear]
      by_cases htoggle : e = .toggle i
      · rw [decide_eq_true htoggle, if_pos htoggle, Bool.xor_true, ← decide_not]
        exact decide_eq_decide.2 (by omega)
      · rw [decide_eq_false htoggle, if_neg htoggle, Bool.xor_false, Nat.add_zero]

/-- **The bytes that a host keeps are the pixels**, after any list of events. -/
theorem buffer_run (es : List Event) : (s.run es).buffer = es.foldl bytesAfter s.buffer := by
  induction es generalizing s with
  | nil => rfl
  | cons e es ih =>
    change ((s.act e).1.run es).buffer = _
    rw [ih, buffer_act, List.foldl_cons]

/-! ## Places -/

/-- **Coordinates of one pixel** differ by full turns around the screen. -/
theorem index_eq_iff {x y x' y' : Nat} :
    index x y = index x' y' ↔ x % 64 = x' % 64 ∧ y % 32 = y' % 32 := by
  simp only [index, height, width]
  omega

/-- Every pixel has coordinates on the screen. -/
theorem exists_index {i : Nat} (h : i < 2048) : ∃ x < 64, ∃ y < 32, index x y = i := by
  refine ⟨i % 64, by omega, i / 64, by omega, ?_⟩
  simp only [index, height, width]
  omega

theorem length_rows (s : Screen) : s.rows.length = 32 := by
  rw [rows, length_chunks (by decide), Vector.length_toList]
  rfl

/-- **A row holds the pixels of its coordinates**, from left to right. -/
theorem exists_row (s : Screen) {y : Nat} (hy : y < 32) :
    ∃ row, s.rows[y]? = some row ∧ row.length = 64 ∧
      ∀ x < 64, row[x]? = some (s.lit ⟨index x y, index_lt x y⟩) := by
  refine ⟨(s.pixels.toList.drop (y * 64)).take 64, ?_, ?_, fun x hx => ?_⟩
  · rw [rows, getElem?_chunks (by decide), Vector.length_toList]
    exact if_pos (show y * 64 < 2048 by omega)
  · rw [List.length_take, List.length_drop, Vector.length_toList]
    omega
  · have hindex : index x y = y * 64 + x := by
      simp only [index, height, width]
      omega
    have hlt : y * 64 + x < 2048 := by omega
    rw [List.getElem?_take_of_lt hx, List.getElem?_drop, Vector.getElem?_toList,
      Vector.getElem?_eq_getElem hlt]
    simp only [lit, hindex, Fin.getElem_fin]

/-- **The history of a screen.**  After any list of events, whether they fail or not, the screen has
2048 bytes, each `0` or `1`: those that a host gets that flips bytes by exclusive or and counts `1` as
on.  A pixel is on if it was flipped an odd number of times since the screen was last cleared.  An event
fails if it flips a pixel behind the last one; then it changes nothing.  Any two coordinates name a
pixel, the same one if they differ by full turns around the screen, and all pixels are named by those on
the screen.  There are 32 rows of 64 pixels, and a pixel stands in them where its coordinates say. -/
theorem screen_history (es : List Event) :
    let s := dark.run es
    let bytes := es.foldl bytesAfter (List.replicate 2048 0)
    (s.buffer = bytes ∧ bytes.length = 2048 ∧ ∀ b ∈ bytes, b = 0 ∨ b = 1) ∧
    (∀ i, s.isOn i =
      if i < 2048 then .ok (togglesSinceClear es i % 2 == 1)
      else .error (.pixelOutOfBounds i 2048)) ∧
    (∀ i < 2048, s.isOn i = .ok (bytes[i]? == some 1)) ∧
    (∀ e, (s.act e).2 =
      match e with
      | .toggle i => if i < 2048 then .ok () else .error (.pixelOutOfBounds i 2048)
      | .clear => .ok ()) ∧
    (∀ e f, (s.act e).2 = .error f → (s.act e).1 = s) ∧
    (∀ x y, index x y < 2048) ∧
    (∀ x y x' y', index x y = index x' y' ↔ x % 64 = x' % 64 ∧ y % 32 = y' % 32) ∧
    (∀ i < 2048, ∃ x < 64, ∃ y < 32, index x y = i) ∧
    s.rows.length = 32 ∧
    ∀ y < 32, ∃ row, s.rows[y]? = some row ∧ row.length = 64 ∧
      ∀ x < 64, ∃ on, row[x]? = some on ∧ s.isOn (index x y) = .ok on := by
  intro s bytes
  have hbuffer : s.buffer = bytes := by
    have hdark : dark.buffer = List.replicate 2048 0 := by
      rw [buffer, dark, Vector.toList_replicate, List.map_replicate]
      rfl
    rw [buffer_run, hdark]
  refine ⟨⟨hbuffer, hbuffer ▸ s.length_buffer, fun b hb => mem_buffer (hbuffer ▸ hb)⟩,
    fun i => ?parity, fun i hi => ?bytes, result_act, fun e f => act_of_error, index_lt,
    fun x y x' y' => index_eq_iff, fun i => exists_index, s.length_rows, fun y hy => ?rows⟩
  case parity =>
    rcases Nat.lt_or_ge i 2048 with hi | hi
    · rw [if_pos hi, s.isOn_val ⟨i, hi⟩, lit_run]
      rfl
    · rw [if_neg (Nat.not_lt.2 hi)]
      exact dif_neg (Nat.not_lt.2 hi)
  case bytes => rw [s.isOn_eq_buffer ⟨i, hi⟩, hbuffer]
  case rows =>
    obtain ⟨row, hrow, hlength, hpixels⟩ := s.exists_row hy
    exact ⟨row, hrow, hlength, fun x hx => ⟨_, hpixels x hx, s.isOn_val ⟨_, index_lt x y⟩⟩⟩

/-- A pixel at the right end of the first row, before and after the screen is cleared. -/
example :
    (dark.run [.toggle (index 127 32), .toggle 2048]).buffer[63]? = some 1 ∧
      (dark.run [.toggle 63, .clear, .toggle 0, .toggle 63, .toggle 63]).buffer[63]? = some 0 := by
  decide +kernel

end Screen
end Chip8
