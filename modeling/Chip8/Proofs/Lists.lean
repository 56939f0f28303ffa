import Mathlib.Data.List.Basic

/-!
# Lists with one entry changed, and lists that were joined

Nothing here is about a machine.  A list that keeps records of several parties (threads, workers,
speakers) changes in one entry at a time, and a text is made of pieces that were joined.

## What is here

* `Lists.getElem?_set_some`, `Lists.getElem?_concat` — the entries after one was replaced or added.
* `Lists.modify_append_cons`, `Lists.map_set_eq_modify` — an entry that was changed, by its place or
  seen through a function.
* `Lists.append_cons_inj`, `Lists.forall_eq_of_flatMap_eq` — pieces that can be told apart after they
  were joined: by what stands between them, or by their lengths.
-/

set_option autoImplicit false

namespace Chip8
namespace Lists

variable {α β : Type} {l : List α} {a b : α} {j k : Nat}

/-! ## One entry -/

/-- A list in which one entry has been replaced. -/
theorem getElem?_set_some (h : (l.set k a)[j]? = some b) :
    (j = k ∧ b = a) ∨ (j ≠ k ∧ l[j]? = some b) := by
  rw [List.getElem?_set] at h
  split at h
  next hkj =>
    split at h
    · exact .inl ⟨hkj.symm, (Option.some.inj h).symm⟩
    · cases h
  next hkj => exact .inr ⟨fun hjk => hkj hjk.symm, h⟩

/-- A list to which an entry has been added. -/
theorem getElem?_concat (l : List α) (a : α) (k : Nat) :
    (l ++ [a])[k]? = l[k]? ∨ k = l.length ∧ (l ++ [a])[k]? = some a := by
  rcases Nat.lt_trichotomy k l.length with hk | rfl | hk
  · exact .inl (List.getElem?_append_left hk)
  · exact .inr ⟨rfl, List.getElem?_concat_length⟩
  · refine .inl ?_
    rw [List.getElem?_eq_none (by rw [List.length_append]; exact hk),
      List.getElem?_eq_none (Nat.le_of_lt hk)]

/-- An entry that stands after others. -/
theorem modify_append_cons (former : List α) (a : α) (later : List α) (f : α → α) :
    (former ++ a :: later).modify former.length f = former ++ f a :: later := by
  rw [List.modify_eq_take_drop, List.take_left, List.drop_left, List.modifyHead_cons]

/-- A list in which one entry has been replaced, seen through a function. -/
theorem map_set_eq_modify {f : α → β} {g : β → β} (h : l[k]? = some a) (hab : f b = g (f a)) :
    (l.set k b).map f = (l.map f).modify k g := by
  rw [List.map_set, hab, List.modify_eq_set_getElem?, List.getElem?_map, h]
  rfl

/-! ## Pieces -/

/-- **Pieces end where the separator stands** if it does not occur in them. -/
theorem append_cons_inj {xs ys zs ws : List α} (hxs : a ∉ xs) (hys : a ∉ ys)
    (h : xs ++ a :: zs = ys ++ a :: ws) : xs = ys ∧ zs = ws := by
  rcases List.append_eq_append_iff.1 h with ⟨between, rfl, hrest⟩ | ⟨between, rfl, hrest⟩
  · cases between with
    | nil => exact ⟨(List.append_nil xs).symm, (List.cons.inj hrest).2⟩
    | cons c between =>
      obtain rfl : a = c := (List.cons.inj hrest).1
      exact absurd (List.mem_append_right xs List.mem_cons_self) hys
  · cases between with
    | nil => exact ⟨List.append_nil ys, (List.cons.inj hrest).2.symm⟩
    | cons c between =>
      obtain rfl : a = c := (List.cons.inj hrest).1
      exact absurd (List.mem_append_right ys List.mem_cons_self) hxs

/-- Blocks of equal lengths can be told apart when they are joined. -/
theorem forall_eq_of_flatMap_eq {f g : α → List β} (hlength : ∀ a, (f a).length = (g a).length)
    {l : List α} (h : l.flatMap f = l.flatMap g) : ∀ a ∈ l, f a = g a := by
  induction l with
  | nil => exact List.forall_mem_nil _
  | cons a l ih =>
    rw [List.flatMap_cons, List.flatMap_cons] at h
    obtain ⟨ha, hl⟩ := List.append_inj h (hlength a)
    exact List.forall_mem_cons.2 ⟨ha, ih hl⟩

end Lists
end Chip8
