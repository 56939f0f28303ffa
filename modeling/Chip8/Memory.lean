import Chip8.Font
import Chip8.Outcome

/-!
# Memory

The 4096 bytes a program can address, and the return addresses of the calls it is in.  The font
lies at the bottom, programs start at `0x200`.

## What is here

* `Memory` — bytes and return addresses.
* `Memory.read`, `Memory.write` — one byte; an address outside of memory is a fault.
* `Memory.readBlock`, `Memory.writeBlock` — consecutive bytes, up to the first missing address.
* `Memory.load`, `Memory.loadFont`, `Memory.clear` — bulk writes.
* `Memory.push`, `Memory.pop` — the call stack, of any depth.
-/

namespace Chip8

/-- The bytes and the call stack. -/
structure Memory where
  /-- The addressable bytes. -/
  bytes : Vector UInt8 4096
  /-- The return addresses, the innermost call first. -/
  calls : List UInt16
deriving DecidableEq

namespace Memory

/-- The number of addressable bytes. -/
def size : Nat := 4096

/-- Where programs are loaded. -/
def programStart : Nat := 0x200

/-- How deep calls of ordinary programs nest; deeper nesting is allowed. -/
def usualDepth : Nat := 16

/-- All bytes zero and no call. -/
def empty : Memory := ⟨Vector.replicate 4096 0, []⟩

instance : Inhabited Memory := ⟨empty⟩

/-! ## Single bytes -/

/-- The byte at an address. -/
def read (m : Memory) (address : Nat) : Except Fault UInt8 :=
  match m.bytes[address]? with
  | some b => .ok b
  | none => .error (.addressOutOfBounds address size)

/-- Stores a byte at an address. -/
def write (m : Memory) (address : Nat) (b : UInt8) : Except Fault Memory :=
  if h : address < 4096 then .ok { m with bytes := m.bytes.set address b }
  else .error (.addressOutOfBounds address size)

/-- All bytes, in the order of their addresses. -/
def toList (m : Memory) : List UInt8 := m.bytes.toList

/-- The bytes from `first` to before `last`. -/
def slice (m : Memory) (first last : Nat) : List UInt8 := (m.toList.drop first).take (last - first)

theorem read_of_lt {m : Memory} {a : Nat} (h : a < 4096) : m.read a = .ok m.bytes[a] := by
  simp [read, h]

theorem read_of_le {m : Memory} {a : Nat} (h : 4096 ≤ a) :
    m.read a = .error (.addressOutOfBounds a size) := by
  simp [read, Vector.getElem?_eq_none h]

theorem write_of_lt {m : Memory} {a : Nat} (h : a < 4096) (b : UInt8) :
    m.write a b = .ok { m with bytes := m.bytes.set a b } := by
  simp [write, h]

theorem write_of_le {m : Memory} {a : Nat} (h : 4096 ≤ a) (b : UInt8) :
    m.write a b = .error (.addressOutOfBounds a size) := by
  simp [write, Nat.not_lt.2 h]

/-! ## Blocks

A block transfer goes address by address and stops at the first one that is missing; what was
transferred up to there stays. -/

/-- Reads `n` bytes from `start` on: the bytes up to the first missing address, and whether there
is one. -/
def readBlock (m : Memory) (start : Nat) : Nat → List UInt8 × Except Fault Unit
  | 0 => ([], .ok ())
  | n + 1 =>
    match m.read start with
    | .error f => ([], .error f)
    | .ok b =>
      let rest := m.readBlock (start + 1) n
      (b :: rest.1, rest.2)

/-- Writes bytes from `start` on: the memory with those up to the first missing address, and
whether there is one. -/
def writeBlock (m : Memory) (start : Nat) : List UInt8 → Memory × Except Fault Unit
  | [] => (m, .ok ())
  | b :: bs =>
    match m.write start b with
    | .error f => (m, .error f)
    | .ok m' => m'.writeBlock (start + 1) bs

/-- A block read gives the bytes that are there. -/
theorem readBlock_fst (m : Memory) (start n : Nat) :
    (m.readBlock start n).1 = (m.toList.drop start).take n := by
  induction n generalizing start with
  | zero => simp [readBlock]
  | succ n ih =>
    rw [readBlock]
    rcases Nat.lt_or_ge start 4096 with h | h
    · have hd : m.toList.drop start = m.bytes[start] :: m.toList.drop (start + 1) := by
        rw [List.drop_eq_getElem_cons (by simpa [toList] using h)]
        simp [toList]
      rw [read_of_lt h, hd, List.take_succ_cons]
      simp only [ih]
    · rw [read_of_le h, List.drop_eq_nil_of_le (by simpa [toList] using h)]
      rfl

/-- A block read fails at its first missing address. -/
theorem readBlock_snd (m : Memory) (start n : Nat) :
    (m.readBlock start n).2 =
      if n = 0 ∨ start + n ≤ 4096 then .ok ()
      else .error (.addressOutOfBounds (max start 4096) size) := by
  induction n generalizing start with
  | zero => simp [readBlock]
  | succ n ih =>
    rw [readBlock]
    rcases Nat.lt_or_ge start 4096 with h | h
    · rw [read_of_lt h]
      simp only [ih]
      by_cases hn : start + (n + 1) ≤ 4096
      · rw [if_pos (by omega), if_pos (by omega)]
      · rw [if_neg (by omega), if_neg (by omega), Nat.max_eq_right (by omega),
          Nat.max_eq_right (by omega)]
    · rw [read_of_le h, if_neg (by omega), Nat.max_eq_left h]

/-- A block write leaves the calls alone. -/
theorem calls_writeBlock (m : Memory) (start : Nat) (bs : List UInt8) :
    (m.writeBlock start bs).1.calls = m.calls := by
  induction bs generalizing m start with
  | nil => rfl
  | cons b bs ih =>
    rw [writeBlock]
    rcases Nat.lt_or_ge start 4096 with h | h
    · rw [write_of_lt h]
      exact ih _ _
    · rw [write_of_le h]

/-- A block write is seen at the addresses of the block that exist, and nowhere else. -/
theorem getElem?_writeBlock (m : Memory) (start : Nat) (bs : List UInt8) (a : Nat) :
    (m.writeBlock start bs).1.bytes[a]? =
      if start ≤ a ∧ a < start + bs.length ∧ a < 4096 then bs[a - start]? else m.bytes[a]? := by
  induction bs generalizing m start with
  | nil => rw [if_neg (by simp only [List.length_nil]; omega)]; rfl
  | cons b bs ih =>
    rw [writeBlock]
    simp only [List.length_cons]
    rcases Nat.lt_or_ge start 4096 with h | h
    · rw [write_of_lt h]
      simp only [ih]
      rcases Nat.lt_trichotomy a start with ha | rfl | ha
      · rw [if_neg (by omega), if_neg (by omega), Vector.getElem?_set_ne h (by omega)]
      · rw [if_neg (by omega), if_pos (by omega), Vector.getElem?_set_self h, Nat.sub_self]
        rfl
      · have hs : a - start = (a - (start + 1)) + 1 := by omega
        rw [hs, List.getElem?_cons_succ, Vector.getElem?_set_ne h (by omega)]
        by_cases hb : a < start + 1 + bs.length ∧ a < 4096
        · rw [if_pos (by omega), if_pos (by omega)]
        · rw [if_neg (by omega), if_neg (by omega)]
    · rw [write_of_le h, if_neg (by omega)]

/-- A block write fails at its first missing address. -/
theorem writeBlock_snd (m : Memory) (start : Nat) (bs : List UInt8) :
    (m.writeBlock start bs).2 =
      if bs = [] ∨ start + bs.length ≤ 4096 then .ok ()
      else .error (.addressOutOfBounds (max start 4096) size) := by
  induction bs generalizing m start with
  | nil => simp [writeBlock]
  | cons b bs ih =>
    rw [writeBlock]
    simp only [List.length_cons, reduceCtorEq, false_or]
    rcases Nat.lt_or_ge start 4096 with h | h
    · rw [write_of_lt h]
      simp only [ih]
      by_cases hn : start + (bs.length + 1) ≤ 4096
      · rw [if_pos (by omega), if_pos hn]
      · rw [if_neg hn]
        rcases bs with _ | ⟨c, cs⟩
        · simp only [List.length_nil] at hn
          omega
        · simp only [List.length_cons] at hn ⊢
          rw [if_neg (by simp only [reduceCtorEq, false_or]; omega), Nat.max_eq_right (by omega),
            Nat.max_eq_right (by omega)]
    · rw [write_of_le h, if_neg (by omega), Nat.max_eq_left h]

/-! ## Bulk writes -/

/-- Copies bytes to `offset`; they fit or nothing is copied. -/
def load (m : Memory) (rom : List UInt8) (offset : Nat) : Outcome Memory (Except Fault Unit) :=
  if offset + rom.length ≤ size then
    ⟨(m.writeBlock offset rom).1, .ok (), [.loaded rom.length offset]⟩
  else ⟨m, .error (.romTooLarge offset rom.length size), []⟩

/-- Copies the font to its place. -/
def loadFont (m : Memory) : Memory := (m.writeBlock Font.location Font.bytes).1

/-- Sets every byte to zero and drops all calls. -/
def clear (_ : Memory) : Memory := empty

/-! ## The call stack -/

/-- Enters a call that returns to `address`. -/
def push (m : Memory) (address : UInt16) : Memory := { m with calls := address :: m.calls }

/-- Leaves the innermost call: its return address and the memory without it. -/
def pop (m : Memory) : Except Fault (UInt16 × Memory) :=
  match m.calls with
  | [] => .error .stackEmpty
  | address :: outer => .ok (address, { m with calls := outer })

/-- The number of calls the program is in. -/
def depth (m : Memory) : Nat := m.calls.length

/-- The return addresses, the outermost call first. -/
def returnAddresses (m : Memory) : List UInt16 := m.calls.reverse

end Memory
end Chip8
