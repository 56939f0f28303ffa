import Chip8.Memory.Event
import Chip8.Proofs.Checked.Basic

/-!
# The history of a memory

Whatever was done to a memory, what it holds can be told from the list of events alone.  An address
holds the byte that was last stored there, by whichever event (`lastStored`), and the calls are those
that were entered and not left since memory was last cleared (`outstanding`).  Events that fail store
nothing, and which of them fail is a matter of their arguments, but for a return without a call.

A program is copied if the end of its block lies in memory.  A host finds this end by a sum of two
sizes, which may not fit into a size; that counts as a failure as well and makes no difference
(`blockEnd?_eq_none_iff`).

## What is here

* `Memory.Event.stored?`, `Memory.lastStored` — the bytes that events store.
* `Memory.callsAfter`, `Memory.outstanding` — the calls that a history leaves.
* `Memory.faultAmong`, `Memory.takenAmong` — which events fail, and what a return gives.
* `Memory.bytes_act`, `Memory.calls_act`, `Memory.result_act` — one event.
* `Memory.bytes_run`, `Memory.calls_run` — a list of events.
* `Memory.blockEnd?` — the end of a block on a host with limited sizes.
* `Memory.memory_history` — the history of a memory.
-/

set_option autoImplicit false

namespace Chip8
namespace Memory

/-! ## What a history says -/

/-- The byte of a block that comes to lie at an address. -/
def placed? (start : Nat) (block : List UInt8) (a : Nat) : Option UInt8 :=
  if start ≤ a then block[a - start]? else none

/-- The byte that an event stores at an address, if it does and does not fail. -/
def Event.stored? (a : Nat) : Event → Option UInt8
  | .write address value => if address = a ∧ a < 4096 then some value else none
  | .load rom offset => if offset + rom.length ≤ 4096 then placed? offset rom a else none
  | .loadFont => placed? Font.location Font.bytes a
  | .clear => if a < 4096 then some 0 else none
  | .push _ | .pop => none

/-- **The byte that was last stored at an address**; zero if none was. -/
def lastStored (es : List Event) (a : Nat) : UInt8 :=
  (es.reverse.findSome? (Event.stored? a)).getD 0

/-- The calls after an event. -/
def callsAfter (calls : List UInt16) : Event → List UInt16
  | .push address => address :: calls
  | .pop => calls.tail
  | .clear => []
  | .write _ _ | .load _ _ | .loadFont => calls

/-- **The calls that were entered and not left**, the innermost first. -/
def outstanding (es : List Event) : List UInt16 := es.foldl callsAfter []

/-- **Which events fail**, while the program is in some calls. -/
def faultAmong (calls : List UInt16) : Event → Option Fault
  | .write address _ => if 4096 ≤ address then some (.addressOutOfBounds address 4096) else none
  | .load rom offset =>
    if 4096 < offset + rom.length then some (.romTooLarge offset rom.length 4096) else none
  | .pop => if calls = [] then some .stackEmpty else none
  | .loadFont | .clear | .push _ => none

/-- The return address that an event takes, while the program is in some calls. -/
def takenAmong (calls : List UInt16) : Event → Option UInt16
  | .pop => calls.head?
  | _ => none

/-! ## One event -/

variable {m : Memory} {e : Event} {a : Nat}

/-- A program that fits is copied. -/
theorem load_of_le {rom : List UInt8} {offset : Nat} (h : offset + rom.length ≤ 4096) :
    m.load rom offset = ⟨(m.writeBlock offset rom).1, .ok (), [.loaded rom.length offset]⟩ :=
  if_pos h

/-- One that does not fit is not copied at all. -/
theorem load_of_lt {rom : List UInt8} {offset : Nat} (h : 4096 < offset + rom.length) :
    m.load rom offset = ⟨m, .error (.romTooLarge offset rom.length size), []⟩ :=
  if_neg (Nat.not_le.2 h)

/-- A block that is written is placed over what was there. -/
theorem getElem?_writeBlock_eq_or {start : Nat} {block : List UInt8} (ha : a < 4096) :
    (m.writeBlock start block).1.bytes[a]? = (placed? start block a).or m.bytes[a]? := by
  rw [getElem?_writeBlock, placed?]
  by_cases hstart : start ≤ a
  · rw [if_pos hstart]
    by_cases hend : a < start + block.length
    · rw [if_pos ⟨hstart, hend, ha⟩, List.getElem?_eq_getElem (by omega), Option.some_or]
    · rw [if_neg (fun h => hend h.2.1), List.getElem?_eq_none (by omega), Option.none_or]
  · rw [if_neg (fun h => hstart h.1), if_neg hstart, Option.none_or]

/-- **The bytes after an event** are those that it stores, and else those from before. -/
theorem bytes_act (ha : a < 4096) :
    (m.act e).state.bytes[a]? = (e.stored? a).or m.bytes[a]? := by
  cases e with
  | write address value =>
    rcases Nat.lt_or_ge address 4096 with h | h
    · simp only [act, write_of_lt h, Event.stored?]
      by_cases haddress : address = a
      · subst haddress
        rw [if_pos ⟨rfl, ha⟩, Vector.getElem?_set_self h, Option.some_or]
      · rw [if_neg (fun h => haddress h.1), Vector.getElem?_set_ne h haddress, Option.none_or]
    · simp only [act, write_of_le h, Event.stored?]
      rw [if_neg (by omega), Option.none_or]
  | load rom offset =>
    rcases Nat.lt_or_ge 4096 (offset + rom.length) with h | h
    · rw [act, load_of_lt h, Event.stored?, if_neg (Nat.not_le.2 h), Option.none_or]
      rfl
    · rw [act, load_of_le h, Event.stored?, if_pos h]
      exact getElem?_writeBlock_eq_or ha
  | loadFont => exact getElem?_writeBlock_eq_or ha
  | clear =>
    rw [Event.stored?, if_pos ha, Option.some_or]
    exact (Vector.getElem?_replicate).trans (if_pos ha)
  | push address => exact (Option.none_or).symm
  | pop =>
    simp only [act, pop, Event.stored?, Option.none_or]
    cases m.calls <;> rfl

/-- **The calls after an event.** -/
theorem calls_act : (m.act e).state.calls = callsAfter m.calls e := by
  cases e with
  | write address value =>
    rcases Nat.lt_or_ge address 4096 with h | h
    · simp only [act, write_of_lt h, callsAfter]
    · simp only [act, write_of_le h, callsAfter]
  | load rom offset =>
    rcases Nat.lt_or_ge 4096 (offset + rom.length) with h | h
    · rw [act, load_of_lt h]
      rfl
    · rw [act, load_of_le h]
      exact calls_writeBlock _ _ _
  | loadFont => exact calls_writeBlock _ _ _
  | clear | push => rfl
  | pop =>
    simp only [act, pop, callsAfter]
    cases hcalls : m.calls with
    | nil => exact hcalls
    | cons => rfl

/-- **The answer to an event.** -/
theorem result_act :
    (m.act e).result =
      match faultAmong m.calls e with
      | some f => .error f
      | none => .ok (takenAmong m.calls e) := by
  cases e with
  | write address value =>
    rcases Nat.lt_or_ge address 4096 with h | h
    · simp only [act, write_of_lt h, faultAmong, if_neg (Nat.not_le.2 h)]
      rfl
    · simp only [act, write_of_le h, faultAmong, if_pos h]
      rfl
  | load rom offset =>
    rcases Nat.lt_or_ge 4096 (offset + rom.length) with h | h
    · rw [act, load_of_lt h, faultAmong, if_pos h]
      rfl
    · rw [act, load_of_le h, faultAmong, if_neg (Nat.not_lt.2 h)]
      rfl
  | loadFont | clear | push => rfl
  | pop =>
    simp only [act, pop, faultAmong]
    cases m.calls <;> rfl

/-- **An event that fails changes nothing.** -/
theorem state_act_of_error {f : Fault} (h : (m.act e).result = .error f) : (m.act e).state = m := by
  cases e with
  | write address value =>
    rcases Nat.lt_or_ge address 4096 with hin | hout
    · rw [act, write_of_lt hin] at h
      cases h
    · rw [act, write_of_le hout]
  | load rom offset =>
    rcases Nat.lt_or_ge 4096 (offset + rom.length) with hout | hin
    · rw [act, load_of_lt hout]
      rfl
    · rw [act, load_of_le hin] at h
      cases h
  | loadFont | clear | push => cases h
  | pop =>
    simp only [act, pop] at h ⊢
    cases hcalls : m.calls with
    | nil => rfl
    | cons a outer =>
      rw [hcalls] at h
      cases h

/-! ## Lists of events -/

/-- **An address holds what was last stored there.** -/
theorem bytes_run (ha : a < 4096) (es : List Event) :
    (m.run es).bytes[a]? = (es.reverse.findSome? (Event.stored? a)).or m.bytes[a]? := by
  induction es generalizing m with
  | nil => rfl
  | cons e es ih =>
    change ((m.act e).state.run es).bytes[a]? = _
    rw [ih, bytes_act ha, List.reverse_cons, List.findSome?_append, Option.or_assoc,
      List.findSome?_singleton]

/-- **The calls are those that are outstanding.** -/
theorem calls_run (es : List Event) : (m.run es).calls = es.foldl callsAfter m.calls := by
  induction es generalizing m with
  | nil => rfl
  | cons e es ih =>
    change ((m.act e).state.run es).calls = _
    rw [ih, calls_act, List.foldl_cons]

/-! ## The end of a block -/

/-- **Where a block ends** on a host whose sizes are limited: nowhere if the sum does not fit, or lies
behind the end of memory. -/
def blockEnd? (p : Platform) (offset length : Nat) : Option Nat :=
  (p.add offset length).toOption.filter (· ≤ size)

/-- A sum that does not fit is behind the end of memory. -/
theorem blockEnd?_eq_none_iff {p : Platform} {offset length : Nat} :
    blockEnd? p offset length = none ↔ 4096 < offset + length := by
  rcases Nat.lt_or_ge 4096 (offset + length) with h | h
  · refine iff_of_true ?_ h
    rw [blockEnd?, Option.filter_eq_none_iff]
    intro e he
    rw [decide_eq_true_iff]
    obtain rfl : e = offset + length := by
      rw [Platform.add, Platform.size] at he
      split at he
      · exact (Option.some.inj he).symm
      · cases he
    exact Nat.not_le.2 h
  · have hfits : decide (offset + length ≤ size) = true := decide_eq_true h
    refine iff_of_false ?_ (Nat.not_lt.2 h)
    rw [blockEnd?, p.add_of_lt (Nat.lt_of_le_of_lt h (by decide)), Except.toOption,
      Option.filter_some, if_pos hfits]
    exact Option.some_ne_none _

/-- **The history of a memory.**  After any list of events, whether they fail or not, memory has 4096
bytes.  An address holds the byte that was last stored there, and zero if none was; there is nothing
behind the end.  The calls are those that were entered and not left since memory was last cleared, to
any depth.  An event fails if it stores a byte or a program behind the end of memory, or leaves a call
when there is none; then it changes nothing.  Leaving a call gives the address of the innermost one.
However wide the sizes of a host are, it turns down the same programs. -/
theorem memory_history (es : List Event) :
    let m := empty.run es
    m.toList.length = 4096 ∧
    (∀ a, m.read a =
      if a < 4096 then .ok (lastStored es a) else .error (.addressOutOfBounds a 4096)) ∧
    m.calls = outstanding es ∧
    (∀ e, (m.act e).result =
      match faultAmong (outstanding es) e with
      | some f => .error f
      | none => .ok (takenAmong (outstanding es) e)) ∧
    (∀ e f, (m.act e).result = .error f → (m.act e).state = m) ∧
    ∀ p rom offset, (∃ f, (m.act (.load rom offset)).result = .error f) ↔
      blockEnd? p offset rom.length = none := by
  intro m
  have hcalls : m.calls = outstanding es := calls_run es
  refine ⟨Vector.length_toList, fun a => ?bytes, hcalls, fun e => ?answers,
    fun e f => state_act_of_error, fun p rom offset => ?loads⟩
  case bytes =>
    rcases Nat.lt_or_ge a 4096 with ha | ha
    · have hzero : empty.bytes[a]? = some 0 := Vector.getElem?_replicate.trans (if_pos ha)
      have hbyte : m.bytes[a]? = some (lastStored es a) := by
        rw [bytes_run ha, hzero, Option.or_some, lastStored]
      rw [if_pos ha, read, hbyte]
    · rw [if_neg (Nat.not_lt.2 ha)]
      exact read_of_le ha
  case answers => rw [result_act, hcalls]
  case loads =>
    rw [blockEnd?_eq_none_iff]
    rcases Nat.lt_or_ge 4096 (offset + rom.length) with h | h
    · rw [act, load_of_lt h]
      exact iff_of_true ⟨_, rfl⟩ h
    · rw [act, load_of_le h]
      refine iff_of_false ?_ (Nat.not_lt.2 h)
      rintro ⟨f, hf⟩
      cases hf

/-- The font is loaded over a byte, a program over the font, and a second program does not fit. -/
example :
    let m := empty.run [.write 2 7, .loadFont, .load [1, 2] 1, .load [3, 4] 4095, .push 0x202, .pop,
      .pop]
    [m.bytes[0]?, m.bytes[1]?, m.bytes[2]?, m.bytes[4095]?] =
      [some 0xF0, some 1, some 2, some 0] ∧ m.calls = [] := by
  decide +kernel

end Memory
end Chip8
