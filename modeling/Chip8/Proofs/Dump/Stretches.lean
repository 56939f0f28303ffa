import Chip8.Proofs.Dump.Lines
import Mathlib.Data.List.Chain
import Mathlib.Data.Nat.Find

/-!
# What the lines of a memory dump are for

The lines of a dump are made piece by piece, and a flag tells whether the mark for zeros stands already.
The memory itself knows of no flag.  It has pieces with something in them, and between these it has
stretches of zeros, each as long as it can be.  Each such piece has a line and each stretch has one, in
the order in which they lie in memory, and there are no other lines.

The argument is about where a stretch begins.  The flag is down in front of a piece if and only if there
is no piece of zeros right before it.  So a mark is made for a piece of zeros if a stretch begins with it,
and none is made within a stretch.

## What is here

* `Dump.piece`, `Dump.Occupied`, `Dump.Blank` — the pieces of a memory.
* `Dump.Stretch`, `Dump.stretch_lastBlank` — the stretches of zeros, and where there is one.
* `Dump.Entry`, `Dump.entries`, `Dump.mem_entries`, `Dump.pairwise_entries` — what there are lines for.
* `Dump.linesFrom_eq`, `Dump.lines_eq` — the lines are those of the entries.
* `Dump.memory_shown_in_order` — the text of a memory.
-/

set_option autoImplicit false

namespace Chip8

open Numeral

namespace Dump

variable {bytes : List UInt8} {k l : Nat}

/-! ## Pieces -/

/-- Piece `k` of a memory; the last one may be shorter than the others. -/
def piece (bytes : List UInt8) (k : Nat) : List UInt8 := (bytes.drop (k * lineSize)).take lineSize

/-- Piece `k` has a byte other than zero. -/
def Occupied (bytes : List UInt8) (k : Nat) : Prop := ∃ b ∈ piece bytes k, b ≠ 0

/-- Piece `k` is there and holds nothing but zeros. -/
def Blank (bytes : List UInt8) (k : Nat) : Prop :=
  piece bytes k ≠ [] ∧ ∀ b ∈ piece bytes k, b = 0

instance (bytes : List UInt8) (k : Nat) : Decidable (Occupied bytes k) :=
  inferInstanceAs (Decidable (∃ _ ∈ _, _))

instance (bytes : List UInt8) (k : Nat) : Decidable (Blank bytes k) :=
  inferInstanceAs (Decidable (_ ∧ _))

theorem Occupied.not_blank (h : Occupied bytes k) : ¬ Blank bytes k := by
  intro hblank
  obtain ⟨b, hb, hne⟩ := h
  exact hne (hblank.2 b hb)

theorem Occupied.piece_ne_nil (h : Occupied bytes k) : piece bytes k ≠ [] := by
  obtain ⟨b, hb, -⟩ := h
  exact List.ne_nil_of_mem hb

/-- A piece that is there has something in it or is blank. -/
theorem blank_of_not_occupied (hk : piece bytes k ≠ []) (h : ¬ Occupied bytes k) :
    Blank bytes k := by
  refine ⟨hk, fun b hb => ?_⟩
  by_contra hne
  exact h ⟨b, hb, hne⟩

theorem all_piece_iff : (piece bytes k).all (· == 0) = true ↔ ¬ Occupied bytes k := by
  simp only [Occupied, List.all_eq_true, beq_iff_eq, not_exists, not_and, not_not]

theorem piece_ne_nil_iff : piece bytes k ≠ [] ↔ k * lineSize < bytes.length := by
  rw [← List.length_pos_iff, piece, List.length_take, List.length_drop, lineSize]
  omega

/-- There are pieces up to any that is there. -/
theorem piece_ne_nil_of_le (hl : piece bytes l ≠ []) (hkl : k ≤ l) : piece bytes k ≠ [] := by
  have hle : k * lineSize ≤ l * lineSize := Nat.mul_le_mul_right lineSize hkl
  exact piece_ne_nil_iff.2 (Nat.lt_of_le_of_lt hle (piece_ne_nil_iff.1 hl))

theorem add_length_piece (hk : piece bytes k ≠ []) :
    k * lineSize + (piece bytes k).length = min ((k + 1) * lineSize) bytes.length := by
  have hlt := piece_ne_nil_iff.1 hk
  rw [piece, List.length_take, List.length_drop, Nat.succ_mul]
  omega

/-- These are the pieces that a memory is cut into. -/
theorem getElem?_chunks_lineSize (bytes : List UInt8) (k : Nat) :
    (chunks lineSize bytes)[k]? = if piece bytes k ≠ [] then some (piece bytes k) else none := by
  rw [getElem?_chunks (by decide)]
  simp only [piece_ne_nil_iff]
  rfl

theorem lt_length_chunks_iff : k < (chunks lineSize bytes).length ↔ piece bytes k ≠ [] := by
  rw [← Nat.not_le, ← List.getElem?_eq_none_iff, getElem?_chunks_lineSize]
  split <;> simp [*]

/-! ## Stretches -/

/-- **A stretch of zeros**: pieces of zeros side by side, with no more of them at either end. -/
structure Stretch (bytes : List UInt8) (first last : Nat) : Prop where
  /-- There is at least one piece. -/
  ordered : first ≤ last
  /-- All pieces are zeros. -/
  blank : ∀ k, first ≤ k → k ≤ last → Blank bytes k
  /-- There is no piece of zeros to add in front. -/
  before : first = 0 ∨ ¬ Blank bytes (first - 1)
  /-- There is no piece of zeros to add behind. -/
  behind : ¬ Blank bytes (last + 1)

/-- No stretch goes on behind the end of the memory. -/
theorem exists_end (bytes : List UInt8) (k : Nat) : ∃ n, ¬ Blank bytes (k + n + 1) := by
  refine ⟨bytes.length, fun h => ?_⟩
  have hlt := piece_ne_nil_iff.1 h.1
  rw [lineSize] at hlt
  omega

/-- The last piece of a stretch that begins with piece `k`. -/
def lastBlank (bytes : List UInt8) (k : Nat) : Nat := k + Nat.find (exists_end bytes k)

/-- **A stretch begins** with each piece of zeros that has none before it. -/
theorem stretch_lastBlank (hk : Blank bytes k) (hbefore : k = 0 ∨ ¬ Blank bytes (k - 1)) :
    Stretch bytes k (lastBlank bytes k) where
  ordered := Nat.le_add_right _ _
  before := hbefore
  behind := Nat.find_spec (exists_end bytes k)
  blank := by
    intro l hkl hl
    rcases Nat.eq_or_lt_of_le hkl with rfl | hlt
    · exact hk
    · obtain ⟨n, rfl⟩ := Nat.exists_eq_add_of_lt hlt
      have hn : n < Nat.find (exists_end bytes k) := by
        rw [lastBlank] at hl
        omega
      exact not_not.1 (Nat.find_min (exists_end bytes k) hn)

theorem Stretch.blank_first {first last : Nat} (h : Stretch bytes first last) :
    Blank bytes first :=
  h.blank first (Nat.le_refl first) h.ordered

theorem Stretch.last_le {first : Nat} (h : Stretch bytes first k) (h' : Stretch bytes first l) :
    l ≤ k := by
  by_contra hlt
  have hordered := h.ordered
  exact h.behind (h'.blank (k + 1) (by omega) (by omega))

/-- Behind a stretch there is something, unless the memory ends there. -/
theorem Stretch.occupied_behind {first last : Nat} (h : Stretch bytes first last) (hlt : last < k)
    (hk : piece bytes k ≠ []) : Occupied bytes (last + 1) := by
  by_contra hzeros
  exact h.behind (blank_of_not_occupied (piece_ne_nil_of_le hk hlt) hzeros)

/-! ## Entries -/

/-- What a line of a dump is for. -/
inductive Entry
  /-- A piece that is shown. -/
  | shown (k : Nat)
  /-- The pieces from one to another, for which a mark stands. -/
  | zeros (first last : Nat)
deriving DecidableEq

namespace Entry

/-- The first piece that an entry is about. -/
def first : Entry → Nat
  | shown k => k
  | zeros first _ => first

/-- The last piece that an entry is about. -/
def last : Entry → Nat
  | shown k => k
  | zeros _ last => last

/-- The entry is a mark. -/
def IsZeros (e : Entry) : Prop := ∃ first last, e = zeros first last

/-- **What there has to be a line for**: each piece with something in it, and each stretch of
zeros. -/
def Due (bytes : List UInt8) : Entry → Prop
  | shown k => Occupied bytes k
  | zeros first last => Stretch bytes first last

variable {e f : Entry}

theorem Due.first_le_last (h : e.Due bytes) : e.first ≤ e.last := by
  cases e with
  | shown k => exact Nat.le_refl k
  | zeros first last => exact Stretch.ordered h

theorem Due.piece_ne_nil (h : e.Due bytes) : piece bytes e.first ≠ [] := by
  cases e with
  | shown k => exact Occupied.piece_ne_nil h
  | zeros first last => exact (Stretch.blank_first h).1

/-- Entries do not overlap. -/
theorem Due.last_lt (he : e.Due bytes) (hf : f.Due bytes) (h : e.first < f.first) :
    e.last < f.first := by
  cases e with
  | shown k => exact h
  | zeros first last =>
    have hstretch : Stretch bytes first last := he
    have hfirst : first < f.first := h
    change last < f.first
    by_contra hlast
    -- The first piece of `f` would lie in the stretch, and so would the one before it.
    have hblank : Blank bytes f.first := hstretch.blank f.first (by omega) (by omega)
    have hblank' : Blank bytes (f.first - 1) := hstretch.blank _ (by omega) (by omega)
    cases f with
    | shown k => exact Occupied.not_blank hf hblank
    | zeros first' last' =>
      rcases Stretch.before hf with hzero | hbefore
      · exact Nat.not_lt_zero _ (hzero ▸ hfirst)
      · exact hbefore hblank'

end Entry

/-- The entry that begins with piece `k`, if there is one. -/
def entryAt? (bytes : List UInt8) (k : Nat) : Option Entry :=
  if Occupied bytes k then some (.shown k)
  else if Blank bytes k ∧ (k = 0 ∨ ¬ Blank bytes (k - 1)) then some (.zeros k (lastBlank bytes k))
  else none

theorem entryAt?_of_occupied (h : Occupied bytes k) : entryAt? bytes k = some (.shown k) := if_pos h

theorem entryAt?_of_begins (hk : Blank bytes k) (hbefore : k = 0 ∨ ¬ Blank bytes (k - 1)) :
    entryAt? bytes k = some (.zeros k (lastBlank bytes k)) := by
  rw [entryAt?, if_neg fun h => h.not_blank hk, if_pos ⟨hk, hbefore⟩]

theorem entryAt?_of_not_begins (hk : ¬ Occupied bytes k)
    (hbefore : ¬ (k = 0 ∨ ¬ Blank bytes (k - 1))) : entryAt? bytes k = none := by
  rw [entryAt?, if_neg hk, if_neg fun h => hbefore h.2]

theorem entryAt?_eq_some_iff {e : Entry} :
    entryAt? bytes k = some e ↔ e.Due bytes ∧ e.first = k := by
  constructor
  case mp =>
    intro h
    rw [entryAt?] at h
    split at h
    case isTrue hoccupied =>
      cases h
      exact ⟨hoccupied, rfl⟩
    case isFalse =>
      obtain ⟨⟨hblank, hbefore⟩, h⟩ := (Option.ite_none_right_eq_some).1 h
      cases h
      exact ⟨stretch_lastBlank hblank hbefore, rfl⟩
  case mpr =>
    rintro ⟨hdue, rfl⟩
    cases e with
    | shown k => exact entryAt?_of_occupied hdue
    | zeros first last =>
      have hstretch : Stretch bytes first last := hdue
      have hfound := stretch_lastBlank hstretch.blank_first hstretch.before
      have hlast : lastBlank bytes first = last :=
        Nat.le_antisymm (hstretch.last_le hfound) (hfound.last_le hstretch)
      rw [← hlast]
      exact entryAt?_of_begins hstretch.blank_first hstretch.before

/-- The entries of a memory, in the order of the pieces that they begin with. -/
def entries (bytes : List UInt8) : List Entry :=
  (List.range (chunks lineSize bytes).length).filterMap (entryAt? bytes)

/-- **There is an entry for all that is due**, and for nothing else. -/
theorem mem_entries {e : Entry} : e ∈ entries bytes ↔ e.Due bytes := by
  simp only [entries, List.mem_filterMap, List.mem_range, lt_length_chunks_iff,
    entryAt?_eq_some_iff]
  constructor
  · rintro ⟨k, -, hdue, -⟩
    exact hdue
  · intro hdue
    exact ⟨e.first, hdue.piece_ne_nil, hdue, rfl⟩

/-- **The entries lie one behind the other.** -/
theorem pairwise_entries (bytes : List UInt8) :
    (entries bytes).Pairwise fun e f => e.last < f.first := by
  refine List.Pairwise.filterMap _ ?_ List.pairwise_lt_range
  intro i j hij e he f hf
  obtain ⟨hdue, rfl⟩ := entryAt?_eq_some_iff.1 he
  obtain ⟨hdue', rfl⟩ := entryAt?_eq_some_iff.1 hf
  exact hdue.last_lt hdue' hij

theorem nodup_entries (bytes : List UInt8) : (entries bytes).Nodup := by
  refine (pairwise_entries bytes).imp_of_mem ?_
  rintro e f he - hlt rfl
  exact Nat.not_lt.2 (mem_entries.1 he).first_le_last hlt

/-- **Between two stretches there is a piece to show.** -/
theorem isChain_entries (bytes : List UInt8) :
    (entries bytes).IsChain fun e f => ¬ (e.IsZeros ∧ f.IsZeros) := by
  rw [List.isChain_iff_forall_rel_of_append_cons_cons]
  rintro _ _ ahead rest heq ⟨⟨first, last, rfl⟩, ⟨first', last', rfl⟩⟩
  have hdue : (Entry.zeros first last).Due bytes := mem_entries.1 (by simp [heq])
  have hdue' : (Entry.zeros first' last').Due bytes := mem_entries.1 (by simp [heq])
  have hsorted := pairwise_entries bytes
  rw [heq] at hsorted
  obtain ⟨-, hsorted, hahead⟩ := List.pairwise_append.1 hsorted
  obtain ⟨hbehind, hsorted⟩ := List.pairwise_cons.1 hsorted
  have hlt : last < first' := hbehind _ List.mem_cons_self
  have hshown : Entry.shown (last + 1) ∈ entries bytes :=
    mem_entries.2 (Stretch.occupied_behind hdue hlt hdue'.piece_ne_nil)
  rw [heq] at hshown
  -- The piece behind the first stretch has no place: it belongs neither ahead of that stretch nor
  -- behind the second one.
  rcases List.mem_append.1 hshown with hmem | hmem
  · have hle : last + 1 < first := hahead _ hmem _ List.mem_cons_self
    have hordered : first ≤ last := hdue.first_le_last
    omega
  · simp only [List.mem_cons, reduceCtorEq, false_or] at hmem
    have hle : last' < last + 1 := (List.pairwise_cons.1 hsorted).1 _ hmem
    have hordered : first' ≤ last' := hdue'.first_le_last
    omega

/-! ## Lines -/

/-- The line of an entry. -/
def Entry.line (bytes : List UInt8) : Entry → Line
  | shown k =>
    .words (k * lineSize) (k * lineSize + (piece bytes k).length - 1) (wordsOf (piece bytes k))
  | zeros _ _ => .zeros

/-- **The lines from piece `k` on** are those of the entries that begin there or later, if the flag is
down where there is no piece of zeros right before, and up elsewhere. -/
theorem linesFrom_eq (bytes : List UInt8) (k n : Nat) (inZeros : Bool)
    (hn : k + n = (chunks lineSize bytes).length)
    (hflag : inZeros = false ↔ k = 0 ∨ ¬ Blank bytes (k - 1)) :
    linesFrom (min (k * lineSize) bytes.length) inZeros ((chunks lineSize bytes).drop k) =
      ((List.range' k n).filterMap (entryAt? bytes)).map (Entry.line bytes) := by
  -- By induction on the number of pieces that are left; what piece `k` is says where the flag is next.
  induction n generalizing k inZeros with
  | zero =>
    rw [List.drop_eq_nil_of_le (by omega)]
    rfl
  | succ n ih =>
    have hk : k < (chunks lineSize bytes).length := by omega
    have hne : piece bytes k ≠ [] := lt_length_chunks_iff.1 hk
    have hpiece : (chunks lineSize bytes)[k] = piece bytes k := by
      rw [List.getElem_eq_iff, getElem?_chunks_lineSize, if_pos hne]
    have haddress : min (k * lineSize) bytes.length = k * lineSize :=
      Nat.min_eq_left (Nat.le_of_lt (piece_ne_nil_iff.1 hne))
    rw [List.drop_eq_getElem_cons hk, hpiece, linesFrom, haddress, add_length_piece hne,
      List.range'_succ, List.filterMap_cons]
    split
    case isFalse hall =>
      have hoccupied : Occupied bytes k := not_not.1 (mt all_piece_iff.2 hall)
      have hrest := ih (k + 1) false (by omega) (by simp [hoccupied.not_blank])
      rw [hrest, entryAt?_of_occupied hoccupied, List.map_cons, ← add_length_piece hne]
      rfl
    case isTrue hall =>
      have hzeros : ¬ Occupied bytes k := all_piece_iff.1 hall
      have hblank : Blank bytes k := blank_of_not_occupied hne hzeros
      have hrest := ih (k + 1) true (by omega) (by simp [hblank])
      cases inZeros with
      | true =>
        rw [if_pos rfl, hrest, entryAt?_of_not_begins hzeros (by simp [← hflag])]
      | false =>
        rw [if_neg Bool.false_ne_true, hrest, entryAt?_of_begins hblank (hflag.1 rfl)]
        rfl

/-- **The lines of a memory** are those of its entries. -/
theorem lines_eq (bytes : List UInt8) : lines bytes = (entries bytes).map (Entry.line bytes) := by
  have h := linesFrom_eq bytes 0 _ false (Nat.zero_add _) (by simp)
  rw [Nat.zero_mul, Nat.zero_min, List.drop_zero] at h
  rw [lines, h, entries, List.range_eq_range']

/-! ## Text -/

/-- The mark for a stretch of zeros. -/
def mark : List Char := "\t...".toList

/-- Word `i` of some bytes, its high byte first; zero stands in for a low byte that is missing. -/
def wordAt (bs : List UInt8) (i : Nat) : Nat :=
  (bs.getD (2 * i) 0).toNat * 256 + (bs.getD (2 * i + 1) 0).toNat

theorem map_toNat_wordsOf (bs : List UInt8) :
    (wordsOf bs).map Opcode.toNat = (List.range ((bs.length + 1) / 2)).map (wordAt bs) := by
  fun_induction wordsOf bs with
  | case1 => rfl
  | case2 high => simp [Opcode.toNat_ofBytes, wordAt]
  | case3 high low rest ih =>
    have hlength : ((high :: low :: rest).length + 1) / 2 = (rest.length + 1) / 2 + 1 := by
      simp only [List.length_cons]
      omega
    rw [hlength, List.range_succ_eq_map, List.map_cons, List.map_cons, ih, List.map_map,
      Opcode.toNat_ofBytes]
    rfl

/-- The text of an entry: a piece with its first and its last address and its words, or a mark. -/
def Entry.chars (bytes : List UInt8) : Entry → List Char
  | shown k =>
    "\t".toList ++ markedHex 4 (k * lineSize)
      ++ " - ".toList ++ markedHex 4 (k * lineSize + (piece bytes k).length - 1) ++ " :".toList
      ++ (List.range (((piece bytes k).length + 1) / 2)).flatMap fun i =>
        ' ' :: markedHex 4 (wordAt (piece bytes k) i)
  | zeros _ _ => mark

theorem Entry.rowChars_line (bytes : List UInt8) (e : Entry) :
    Table.rowChars (e.line bytes).cells = e.chars bytes := by
  refine List.append_cancel_right ((e.line bytes).chars_eq.symm.trans ?_)
  cases e with
  | shown k =>
    have hwords : (wordsOf (piece bytes k)).flatMap (fun w => ' ' :: markedHex 4 w.toNat) =
        (List.range (((piece bytes k).length + 1) / 2)).flatMap fun i =>
          ' ' :: markedHex 4 (wordAt (piece bytes k) i) :=
      calc
        _ = ((wordsOf (piece bytes k)).map Opcode.toNat).flatMap (' ' :: markedHex 4 ·) := by
              rw [List.flatMap_map]
        _ = _ := by rw [map_toNat_wordsOf, List.flatMap_map]
    rw [line, Line.chars, chars, hwords]
    simp
  | zeros first last => rfl

theorem Entry.isZeros_of_chars {e : Entry} (h : e.chars bytes = mark) : e.IsZeros := by
  cases e with
  | shown k => simp [chars, mark, markedHex] at h
  | zeros first last => exact ⟨first, last, rfl⟩

/-- Each entry has a line of its own in the text, and the last of them is ended like the others. -/
theorem splitOn_memoryChars (bytes : List UInt8) :
    (memoryChars bytes).splitOn '\n' = (entries bytes).map (Entry.chars bytes) ++ [[]] := by
  rw [memoryChars_eq, Table.splitOn_chars (plain_lines bytes), lines_eq, List.map_map, List.map_map]
  simp only [Function.comp_def, Entry.rowChars_line]

/-- **Marks are never next to each other.** -/
theorem isChain_splitOn_memoryChars (bytes : List UInt8) :
    ((memoryChars bytes).splitOn '\n').IsChain fun line next => ¬ (line = mark ∧ next = mark) := by
  rw [splitOn_memoryChars, List.isChain_append, List.isChain_map]
  refine ⟨(isChain_entries bytes).imp ?_, List.isChain_singleton _, ?_⟩
  · intro e f hne h
    exact hne ⟨Entry.isZeros_of_chars h.1, Entry.isZeros_of_chars h.2⟩
  · intro line _ next hnext h
    have hempty : next = [] := by simpa using hnext.symm
    exact absurd (hempty.symm.trans h.2) (by decide)

/-- **A memory is shown in order and in full**, whatever its length.  The lines of its text are those of
its entries.  There is an entry for each piece that has a byte other than zero, which shows its first and
its last address and its words, and one for each stretch of zeros; there is no other entry, none occurs
twice, and they stand in the order of their addresses.  Marks for zeros are never next to each other.
Among memories of one length, each has a text of its own. -/
theorem memory_shown_in_order (bytes : List UInt8) :
    (memoryChars bytes).splitOn '\n' = (entries bytes).map (Entry.chars bytes) ++ [[]] ∧
      (∀ e, e ∈ entries bytes ↔ e.Due bytes) ∧
      (entries bytes).Nodup ∧
      ((entries bytes).Pairwise fun e f => e.last < f.first) ∧
      (((memoryChars bytes).splitOn '\n').IsChain fun line next => ¬ (line = mark ∧ next = mark)) ∧
      ∀ others : List UInt8, others.length = bytes.length →
        (memoryChars others = memoryChars bytes ↔ others = bytes) := by
  refine ⟨splitOn_memoryChars bytes, fun _ => mem_entries, nodup_entries bytes,
    pairwise_entries bytes, isChain_splitOn_memoryChars bytes, ?_⟩
  intro others hlength
  exact ⟨memoryChars_inj hlength, congrArg memoryChars⟩

/-- Two pieces of zeros, and three bytes. -/
example :
    memoryChars (List.replicate 32 0 ++ [1, 2, 3]) =
      "\t...\n\t0x0020 - 0x0022 : 0x0102 0x0300\n".toList := by
  decide +kernel

end Dump
end Chip8
