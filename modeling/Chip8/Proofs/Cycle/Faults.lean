import Chip8.Proofs.Cycle.Basic
import Chip8.Proofs.Drawing

/-!
# When a cycle fails

Whether a cycle fails, and with what, can be told before it runs: from the program counter, the word
it points to, the index register, and whether the program is in a call.  `Machine.cycleFault?` is
that forecast, written down without running anything, and `faultOf?_cycle` says that it comes true.

The faults of the block transfers are the interesting ones.  A transfer goes address by address and
fails at the first missing one, which is the index register itself if it already lies outside of
memory, and `4096` if the block runs over the end; so it is `max I 4096` either way.

## What is here

* `faultOf?` — the fault of a result.
* `Machine.executeFault?`, `faultOf?_execute` — the forecast for an instruction.
* `Machine.cycleFault?`, `faultOf?_cycle` — the forecast for a cycle.
-/

set_option autoImplicit false

namespace Chip8

/-! ## Results and their faults -/

/-- The fault of a result, if it is one. -/
def faultOf? {α : Type} : Except Fault α → Option Fault
  | .error f => some f
  | .ok _ => none

variable {α : Type}

theorem faultOf?_eq_some_iff {r : Except Fault α} {f : Fault} :
    faultOf? r = some f ↔ r = .error f := by
  cases r <;> simp [faultOf?]

theorem faultOf?_eq_none_iff {r : Except Fault α} : faultOf? r = none ↔ ∃ a, r = .ok a := by
  cases r <;> simp [faultOf?]

theorem faultOf?_map {β : Type} (r : Except Fault α) (g : α → β) :
    faultOf? (r.map g) = faultOf? r := by
  cases r <;> rfl

/-- The fault of a block of `n` bytes from `start` on. -/
def blockFault? (start n : Nat) : Option Fault :=
  if 0 < n ∧ 4096 < start + n then some (.addressOutOfBounds (max start 4096) 4096) else none

theorem faultOf?_readBlock (m : Memory) (start n : Nat) :
    faultOf? (m.readBlock start n).2 = blockFault? start n := by
  rw [Memory.readBlock_snd, blockFault?]
  by_cases h : n = 0 ∨ start + n ≤ 4096
  · rw [if_pos h, if_neg (by omega)]
    rfl
  · rw [if_neg h, if_pos (by omega)]
    rfl

theorem faultOf?_writeBlock (m : Memory) (start : Nat) (bytes : List UInt8) :
    faultOf? (m.writeBlock start bytes).2 = blockFault? start bytes.length := by
  rw [Memory.writeBlock_snd, blockFault?]
  by_cases h : bytes = [] ∨ start + bytes.length ≤ 4096
  · have hlen : ¬ (0 < bytes.length ∧ 4096 < start + bytes.length) := by
      rcases h with rfl | h
      · simp
      · omega
    rw [if_pos h, if_neg hlen]
    rfl
  · have hpos : 0 < bytes.length := List.length_pos_iff.2 fun e => h (.inl e)
    rw [if_neg h, if_pos ⟨hpos, by omega⟩]
    rfl

namespace Machine

/-! ## Instructions -/

theorem faultOf?_leave (m : Machine) :
    faultOf? m.leave.result = if m.memory.calls = [] then some .stackEmpty else none := by
  rw [leave, Memory.pop]
  cases m.memory.calls <;> rfl

theorem faultOf?_takeKey (m : Machine) (x : Nat) : faultOf? (m.takeKey x).result = none := by
  rw [takeKey]
  split <;> rfl

/-- A drawing finds all of its pixels, so the only fault is that of the rows it reads. -/
theorem faultOf?_drawSprite (m : Machine) (x y n : Nat) :
    faultOf? (m.drawSprite x y n).result = faultOf? (m.memory.readBlock m.i.toNat n).2 := by
  simp only [drawSprite, Screen.plot_eq_draw]
  exact faultOf?_map _ _

theorem faultOf?_afterTransfer (transfer : Machine × Except Fault Unit)
    (after : Machine → Machine) :
    faultOf? (afterTransfer transfer after).result = faultOf? transfer.2 := by
  rw [afterTransfer]
  split <;> simp_all [faultOf?, goOn]

/-- The fault of an instruction: a return needs a call, and a block has to lie in memory. -/
def executeFault? (m : Machine) (i : Instruction) : Option Fault :=
  if i = .ret ∧ m.memory.calls = [] then some .stackEmpty else blockFault? m.i.toNat i.span

/-- **Which instructions fail.** -/
theorem faultOf?_execute (m : Machine) {i : Instruction} (hi : i.Fits) :
    faultOf? (m.execute i).result = m.executeFault? i := by
  rw [executeFault?]
  cases i with
  | ret =>
    rw [show m.execute .ret = m.leave from rfl, faultOf?_leave]
    simp [Instruction.span, blockFault?]
  | awaitKey x =>
    rw [show m.execute (.awaitKey x) = m.takeKey x from rfl, faultOf?_takeKey]
    rfl
  | draw x y n => exact (m.faultOf?_drawSprite x y n.toNat).trans (faultOf?_readBlock _ _ _)
  | storeDecimal x => exact (faultOf?_afterTransfer _ _).trans (faultOf?_writeBlock _ _ _)
  | storeRegisters x =>
    rw [show m.execute (.storeRegisters x)
      = afterTransfer (m.storeBytes (m.v.take (x + 1))) (advanceIndex · x) from rfl,
      faultOf?_afterTransfer]
    refine (faultOf?_writeBlock _ _ _).trans ?_
    rw [Registers.length_take _ (show x + 1 ≤ 16 from hi)]
    rfl
  | fillRegisters x => exact (faultOf?_afterTransfer _ _).trans (faultOf?_readBlock _ _ _)
  | _ => rfl

/-! ## Cycles -/

/-- **The forecast of a cycle**: the fault it will end with, if any.  The tests come in this order:
both bytes at the program counter lie in memory, the word has a row in the decode table, a return
finds a call, and the bytes behind the index register that the word stands for lie in memory. -/
def cycleFault? (m : Machine) : Option Fault :=
  let w := m.memory.word m.pc.toNat
  if 4096 ≤ m.pc.toNat then some (.addressOutOfBounds m.pc.toNat 4096)
  else if m.pc.toNat = 4095 then some (.addressOutOfBounds 4096 4096)
  else if ¬ w.Listed then some (.invalidOpcode w)
  else if w.toNat = 0x00EE ∧ m.memory.calls = [] then some .stackEmpty
  else if 0 < w.span ∧ 4096 < m.i.toNat + w.span then
    some (.addressOutOfBounds (max m.i.toNat 4096) 4096)
  else none

/-- The fault of a performed instruction is that of its execution. -/
theorem faultOf?_perform (m : Machine) (i : Instruction) :
    faultOf? (m.perform i).result = faultOf? (m.execute i).result := by
  rcases h : (m.execute i).result with f | ⟨step, s⟩
  · rw [perform_of_error h]
    rfl
  · rw [perform_of_ok h]
    rfl

/-- **The forecast comes true.** -/
theorem faultOf?_cycle (m : Machine) : faultOf? m.cycle.result = m.cycleFault? := by
  refine cycle_cases (P := fun o => faultOf? o.result = m.cycleFault?) m
    (fun f hf => ?_) (fun w hw hi => ?_) (fun w i hw hi => ?_)
  · rw [fetch_eq] at hf
    rw [cycleFault?]
    split at hf
    next h => rw [if_pos h]; cases hf; rfl
    next h =>
      rw [if_neg h]
      split at hf
      next h' => rw [if_pos h']; cases hf; rfl
      next => cases hf
  · obtain ⟨hpc, rfl⟩ := fetch_eq_ok_iff.1 hw
    have hlisted := Instruction.ofOpcode?_eq_none_iff.1 hi
    simp only [cycleFault?]
    rw [if_neg (by omega), if_neg (by omega), if_pos hlisted]
    rfl
  · obtain ⟨hpc, rfl⟩ := fetch_eq_ok_iff.1 hw
    have hlisted : (m.memory.word m.pc.toNat).Listed :=
      Decidable.of_not_not fun h => by simp [Instruction.ofOpcode?_eq_none_iff.2 h] at hi
    have hret : i = .ret ↔ (m.memory.word m.pc.toNat).toNat = 0x00EE := by
      rw [← Instruction.ofOpcode?_eq_ret_iff, hi, Option.some.injEq]
    rw [faultOf?_perform, faultOf?_execute _ (Instruction.code_of_ofOpcode? hi).1]
    simp only [cycleFault?, executeFault?, blockFault?, fetched, Instruction.span_of_ofOpcode? hi,
      hret]
    rw [if_neg (show ¬ 4096 ≤ m.pc.toNat by omega), if_neg (show ¬ m.pc.toNat = 4095 by omega),
      if_neg (not_not_intro hlisted)]

/-- The faults that a cycle can end with. -/
theorem of_cycleFault?_eq_some {m : Machine} {f : Fault} (h : m.cycleFault? = some f) :
    (∃ w, f = .invalidOpcode w) ∨ f = .stackEmpty ∨ ∃ a, f = .addressOutOfBounds a 4096 := by
  simp only [cycleFault?] at h
  grind

/-- **When a cycle fails, and with what**: exactly as forecast, whatever brought the machine to its
state.  No cycle fails with a missing pixel or with a program that is too large. -/
theorem cycle_error_iff (m : Machine) :
    (∀ f, m.cycle.result = .error f ↔ m.cycleFault? = some f) ∧
      ((∃ s, m.cycle.result = .ok s) ↔ m.cycleFault? = none) ∧
      (∀ i n, m.cycle.result ≠ .error (.pixelOutOfBounds i n)) ∧
      ∀ o l c, m.cycle.result ≠ .error (.romTooLarge o l c) := by
  have hiff : ∀ f, m.cycle.result = .error f ↔ m.cycleFault? = some f := by
    intro f
    rw [← faultOf?_cycle, faultOf?_eq_some_iff]
  refine ⟨hiff, ?_, fun i n h => ?_, fun o l c h => ?_⟩
  · rw [← faultOf?_cycle, faultOf?_eq_none_iff]
  · obtain ⟨w, hw⟩ | hs | ⟨a, ha⟩ := of_cycleFault?_eq_some ((hiff _).mp h)
    · cases hw
    · cases hs
    · cases ha
  · obtain ⟨w, hw⟩ | hs | ⟨a, ha⟩ := of_cycleFault?_eq_some ((hiff _).mp h)
    · cases hw
    · cases hs
    · cases ha

end Machine
end Chip8
