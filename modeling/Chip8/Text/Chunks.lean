/-!
# Chunks

A list cut into pieces of one length, the last of which may be shorter.

## What is here

* `chunks` — the pieces.
* `flatten_chunks`, `ne_nil_of_mem_chunks` — nothing is lost, and no piece is empty.
* `length_chunks`, `getElem?_chunks` — how many pieces there are, and which elements each of them
  holds.
-/

namespace Chip8

variable {α : Type _}

/-- The list cut into pieces of `size` elements; a size of zero cuts single elements. -/
def chunks (size : Nat) (xs : List α) : List (List α) :=
  match xs with
  | [] => []
  | x :: rest =>
    (x :: rest.take (size - 1)) :: chunks size (rest.drop (size - 1))
termination_by xs.length
decreasing_by
  simp only [List.length_cons, List.length_drop]
  omega

theorem flatten_chunks (size : Nat) (xs : List α) : (chunks size xs).flatten = xs := by
  fun_induction chunks size xs with
  | case1 => rfl
  | case2 x rest ih => simp [ih]

theorem ne_nil_of_mem_chunks {size : Nat} {xs c : List α} (h : c ∈ chunks size xs) : c ≠ [] := by
  fun_induction chunks size xs with
  | case1 => simp at h
  | case2 x rest ih =>
    rcases List.mem_cons.1 h with rfl | h
    · simp
    · exact ih h

theorem length_chunks {size : Nat} (hsize : 0 < size) (xs : List α) :
    (chunks size xs).length = (xs.length + size - 1) / size := by
  fun_induction chunks size xs with
  | case1 =>
    simp only [List.length_nil]
    exact (Nat.div_eq_of_lt (by omega)).symm
  | case2 x rest ih =>
    have hsum : (x :: rest).length + size - 1 = rest.length + size := by
      rw [List.length_cons]
      omega
    have hrest : ((rest.drop (size - 1)).length + size - 1) / size = rest.length / size := by
      rw [List.length_drop]
      rcases Nat.lt_or_ge rest.length (size - 1) with h | h
      · rw [Nat.div_eq_of_lt (by omega), Nat.div_eq_of_lt (by omega)]
      · rw [show rest.length - (size - 1) + size - 1 = rest.length by omega]
    rw [List.length_cons, ih, hrest, hsum, Nat.add_div_right _ hsize]

/-- Piece `k` starts `k` pieces behind the first element. -/
theorem getElem?_chunks {size : Nat} (hsize : 0 < size) (xs : List α) (k : Nat) :
    (chunks size xs)[k]? =
      if k * size < xs.length then some ((xs.drop (k * size)).take size) else none := by
  fun_induction chunks size xs generalizing k with
  | case1 => simp
  | case2 x rest ih =>
    obtain ⟨s, rfl⟩ : ∃ s, size = s + 1 := ⟨size - 1, by omega⟩
    cases k with
    | zero => simp
    | succ k =>
      have hdrop : (x :: rest).drop ((k + 1) * (s + 1)) = (rest.drop s).drop (k * (s + 1)) := by
        rw [List.drop_drop, Nat.succ_mul, ← Nat.add_assoc, List.drop_succ_cons, Nat.add_comm]
      have hlength :
          (k + 1) * (s + 1) < (x :: rest).length ↔ k * (s + 1) < (rest.drop s).length := by
        rw [List.length_cons, List.length_drop, Nat.succ_mul]
        omega
      rw [List.getElem?_cons_succ, ih, Nat.add_sub_cancel, hdrop]
      simp only [hlength]

end Chip8
