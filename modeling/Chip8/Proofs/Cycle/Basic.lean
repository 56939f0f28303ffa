import Chip8.Machine.Cycle
import Chip8.Proofs.Decoding

/-!
# The course of a cycle

A cycle ends in one of three places: it finds no word at the program counter, the word stands for no
instruction, or an instruction is executed.  `Machine.cycle_cases` is this case split, once for all
proofs about cycles; the lemmas after it say what the execution of an instruction does to the parts
of the machine that instructions share.

## What is here

* `Memory.word`, `Machine.fetch_eq` — the word at an address, and when it can be fetched.
* `Machine.cycle_cases`, `Machine.perform_of_error`, `Machine.perform_of_ok` — the course of a
  cycle.
* `Machine.pc_execute`, `Machine.calls_execute` — the program counter stands still while an
  instruction runs, and only calls and returns touch the call stack.
* `Machine.load_calls`, `Machine.pollSpeaker_state` — what a host leaves alone between two cycles.
-/

set_option autoImplicit false

namespace Chip8

/-! ## Fetching -/

/-- The big-endian word at an address; bytes behind the end of memory count as zero. -/
def Memory.word (m : Memory) (a : Nat) : Opcode :=
  .ofBytes (m.bytes[a]?.getD 0) (m.bytes[a + 1]?.getD 0)

namespace Machine

/-- **A word is fetched if both of its bytes lie in memory**; else the first byte that does not is
the fault. -/
theorem fetch_eq (m : Machine) :
    m.fetch =
      if 4096 ≤ m.pc.toNat then .error (.addressOutOfBounds m.pc.toNat 4096)
      else if m.pc.toNat = 4095 then .error (.addressOutOfBounds 4096 4096)
      else .ok (m.memory.word m.pc.toNat) := by
  rcases Nat.lt_or_ge m.pc.toNat 4096 with h | h
  · have hnext : (m.pc + 1).toNat = m.pc.toNat + 1 := by
      rw [UInt16.toNat_add, UInt16.toNat_one]
      omega
    rw [fetch, Memory.read_of_lt h, hnext, if_neg (Nat.not_le.2 h)]
    rcases Nat.lt_or_ge (m.pc.toNat + 1) 4096 with h' | h'
    · rw [Memory.read_of_lt h', if_neg (by omega), Memory.word, Vector.getElem?_eq_getElem h,
        Vector.getElem?_eq_getElem h']
      rfl
    · rw [Memory.read_of_le h', if_pos (by omega), show m.pc.toNat + 1 = 4096 by omega]
      rfl
  · rw [fetch, Memory.read_of_le h, if_pos h]
    rfl

/-- A fetched word stands at the program counter, and both of its bytes lie in memory. -/
theorem fetch_eq_ok_iff {m : Machine} {w : Opcode} :
    m.fetch = .ok w ↔ m.pc.toNat < 4095 ∧ w = m.memory.word m.pc.toNat := by
  rw [fetch_eq]
  split
  · simp only [reduceCtorEq, false_iff]
    omega
  · split
    · simp only [reduceCtorEq, false_iff]
      omega
    · simp only [Except.ok.injEq, eq_comm (b := w)]
      exact ⟨fun h => ⟨by omega, h⟩, fun h => h.2⟩

/-! ## The course of a cycle -/

/-- The machine at the start of the execution of a word. -/
def fetched (m : Machine) (w : Opcode) : Machine := { m with opcode := w }

/-- **The three ends of a cycle**: nothing fetched, nothing decoded, or an instruction executed. -/
theorem cycle_cases {P : Outcome Machine (Except Fault Signal) → Prop} (m : Machine)
    (unfetched : ∀ f, m.fetch = .error f → P ⟨m, .error f, []⟩)
    (undecoded : ∀ w, m.fetch = .ok w → Instruction.ofOpcode? w = none →
      P ⟨m.fetched w, .error (.invalidOpcode w), []⟩)
    (performed : ∀ w i, m.fetch = .ok w → Instruction.ofOpcode? w = some i →
      P ((m.fetched w).perform i)) : P m.cycle := by
  rw [cycle]
  cases hw : m.fetch with
  | error f => exact unfetched f hw
  | ok w =>
    cases hi : Instruction.ofOpcode? w with
    | none => simpa only [Instruction.decode, hi, fetched] using undecoded w hw hi
    | some i => simpa only [Instruction.decode, hi, fetched] using performed w i hw hi

/-- A cycle whose word stands for an instruction performs it. -/
theorem cycle_eq_perform {m : Machine} {w : Opcode} {i : Instruction} (hw : m.fetch = .ok w)
    (hi : Instruction.ofOpcode? w = some i) : m.cycle = (m.fetched w).perform i := by
  simp only [cycle, hw, Instruction.decode, hi, fetched]

/-- The record made before an instruction is executed. -/
def performLog (m : Machine) (i : Instruction) : List Record :=
  .running m.pc m.opcode i :: (m.execute i).log

theorem perform_of_error {m : Machine} {i : Instruction} {f : Fault}
    (h : (m.execute i).result = .error f) :
    m.perform i = ⟨(m.execute i).state, .error f, m.performLog i⟩ := by
  simp only [perform, conclude, performLog, h]

theorem perform_of_ok {m : Machine} {i : Instruction} {step : Step} {s : Signal}
    (h : (m.execute i).result = .ok (step, s)) :
    m.perform i =
      ⟨{ (m.execute i).state with pc := step.target m.following }, .ok s, m.performLog i⟩ := by
  simp only [perform, conclude, performLog, h]

/-- What comes after the execution of an instruction moves the program counter and nothing else. -/
theorem perform_state {α : Type} (part : Machine → α) (m : Machine) (i : Instruction)
    (h : ∀ (m : Machine) pc, part { m with pc } = part m) :
    part (m.perform i).state = part (m.execute i).state := by
  rcases hresult : (m.execute i).result with f | ⟨step, s⟩
  · rw [perform_of_error hresult]
  · rw [perform_of_ok hresult]
    exact h _ _

/-! ## What instructions share -/

/-- A part of the machine that survives what comes after a transfer is the one the transfer left. -/
theorem afterTransfer_state {α : Type} (part : Machine → α) (transfer : Machine × Except Fault Unit)
    (after : Machine → Machine) (h : ∀ m, part (after m) = part m) :
    part (afterTransfer transfer after).state = part transfer.1 := by
  rw [afterTransfer]
  split
  · rfl
  · exact h _

/-- A return touches nothing but memory. -/
theorem leave_state {α : Type} (part : Machine → α) (m : Machine)
    (h : ∀ memory, part { m with memory } = part m) : part m.leave.state = part m := by
  rw [leave]
  cases m.memory.pop with
  | error f => rfl
  | ok popped => exact h _

/-- Taking a key touches nothing but the registers. -/
theorem takeKey_state {α : Type} (part : Machine → α) (m : Machine) (x : Nat)
    (h : ∀ v, part { m with v } = part m) : part (m.takeKey x).state = part m := by
  rw [takeKey]
  cases m.keypad.lowest? with
  | none => rfl
  | some code => exact h _

theorem storeBytes_calls (m : Machine) (bytes : List UInt8) :
    (m.storeBytes bytes).1.memory.calls = m.memory.calls :=
  Memory.calls_writeBlock _ _ _

theorem leave_calls (m : Machine) : m.leave.state.memory.calls = m.memory.calls.tail := by
  rw [leave, Memory.pop]
  cases h : m.memory.calls <;> simp [h]

/-- **The program counter stands still while an instruction runs.** -/
theorem pc_execute (m : Machine) (i : Instruction) : (m.execute i).state.pc = m.pc := by
  cases i with
  | ret => exact m.leave_state pc fun _ => rfl
  | awaitKey x => exact m.takeKey_state pc x fun _ => rfl
  | storeDecimal x => exact afterTransfer_state pc _ _ fun _ => rfl
  | storeRegisters x => exact afterTransfer_state pc _ _ fun _ => rfl
  | fillRegisters x => exact afterTransfer_state pc _ _ fun _ => rfl
  | _ => rfl

/-- The calls a program is in after an instruction. -/
def callsAfter (m : Machine) : Instruction → List UInt16
  | .call _ => m.following :: m.memory.calls
  | .ret => m.memory.calls.tail
  | _ => m.memory.calls

/-- **Only calls and returns touch the call stack.** -/
theorem calls_execute (m : Machine) (i : Instruction) :
    (m.execute i).state.memory.calls = m.callsAfter i := by
  cases i with
  | ret => exact m.leave_calls
  | awaitKey x => exact m.takeKey_state (·.memory.calls) x fun _ => rfl
  | storeDecimal x =>
    exact (afterTransfer_state (·.memory.calls) _ _ fun _ => rfl).trans (m.storeBytes_calls _)
  | storeRegisters x =>
    exact (afterTransfer_state (·.memory.calls) _ (advanceIndex · x) fun _ => rfl).trans
      (m.storeBytes_calls _)
  | fillRegisters x => exact afterTransfer_state (·.memory.calls) _ _ fun _ => rfl
  | _ => rfl

/-! ## Between two cycles -/

/-- A program that is loaded leaves the calls alone. -/
theorem load_calls (m : Machine) (rom : List UInt8) :
    (m.load rom).state.memory.calls = m.memory.calls := by
  change (m.memory.load rom Memory.programStart).state.calls = _
  rw [Memory.load]
  split
  · exact Memory.calls_writeBlock _ _ _
  · rfl

/-- The callback of a speaker touches nothing but the speakers and the sound timer. -/
theorem pollSpeaker_state {α : Type} (part : Machine → α) (m : Machine) (age : Nat)
    (h : ∀ speakers sound, part { m with speakers, sound } = part m) :
    part (m.pollSpeaker age).state = part m := by
  rw [pollSpeaker]
  cases m.speakers[age]? with
  | none => rfl
  | some speaker => exact h _ _

end Machine
end Chip8
