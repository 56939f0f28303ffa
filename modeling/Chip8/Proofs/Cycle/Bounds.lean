import Chip8.Machine.Event
import Chip8.Proofs.Cycle.Faults

/-!
# How far a machine can get

The program counter and the index register are 16 bits wide and wrap around, while memory ends at
`0x1000`.  Whatever a host and a program do, the program counter never gets far enough to wrap:

* going on or skipping starts below the end of memory, which gives at most `0x1002`;
* a jump holds twelve bits, and a jump with an offset adds a byte, which gives at most `0x10FE`;
* a return goes where a call came from, and a call was fetched below the end of memory.

`Machine.Bounded` is the invariant.  Every event keeps it (`Bounded.handle`), so every run does.
From it follows that all the counting is the counting of natural numbers (`Machine.Unwrapped`).

## What is here

* `Machine.jump_execute` — where an instruction can jump to.
* `Machine.Bounded`, `Bounded.handle`, `Bounded.run` — the invariant, one event, a list of events.
* `Machine.Unwrapped`, `Bounded.unwrapped` — no sum or difference wraps around.
* `Machine.bounded_run_new` — both, for every run of a new machine.
-/

set_option autoImplicit false

namespace Chip8

/-! ## Where instructions lead -/

/-- Where a step leads from an instruction at `pc`, counted in natural numbers. -/
def Step.place (pc : Nat) : Step → Nat
  | next => pc + 2
  | skip => pc + 4
  | again => pc
  | jump a => a.toNat

theorem Step.skipIf_ne_jump (c : Bool) (a : UInt16) : Step.skipIf c ≠ .jump a := by
  cases c <;> simp [Step.skipIf]

theorem eq_of_map_const_eq_ok {α β : Type} {r : Except Fault α} {b c : β}
    (h : (r.map fun _ => b) = .ok c) : b = c := by
  cases r with
  | error f => cases h
  | ok a => exact Except.ok.inj h

namespace Machine

/-- A transfer that succeeds goes on behind it. -/
theorem afterTransfer_of_ok {transfer : Machine × Except Fault Unit} {after : Machine → Machine}
    {v : Step × Signal} (h : (afterTransfer transfer after).result = .ok v) :
    afterTransfer transfer after = goOn (after transfer.1) := by
  rw [afterTransfer] at h ⊢
  rcases ht : transfer.2 with f | ⟨⟩
  · rw [ht] at h
    cases h
  · rfl

/-- **An instruction jumps into the first twelve bits, a byte further at most, or to a return
address.** -/
theorem jump_execute {m : Machine} {i : Instruction} (hi : i.Fits) {a : UInt16} {s : Signal}
    (h : (m.execute i).result = .ok (.jump a, s)) : a.toNat ≤ 0x10FE ∨ a ∈ m.memory.calls := by
  cases i with
  | ret =>
    refine .inr ?_
    change m.leave.result = _ at h
    rw [leave, Memory.pop] at h
    cases hc : m.memory.calls with
    | nil => rw [hc] at h; cases h
    | cons b outer => rw [hc] at h; cases h; exact List.mem_cons_self
  | jump nnn | call nnn =>
    have hn : nnn.toNat < 4096 := hi
    cases h
    omega
  | jumpOffset nnn =>
    have hn : nnn.toNat < 4096 := hi
    have hb := (m.v.get 0).toNat_lt
    cases h
    rw [UInt16.toNat_add, UInt8.toNat_toUInt16]
    omega
  | skipEqual | skipNotEqual | skipEqualRegister | skipNotEqualRegister | skipPressed
  | skipNotPressed => exact absurd (Prod.mk.inj (Except.ok.inj h)).1 (Step.skipIf_ne_jump _ _)
  | draw x y n =>
    cases eq_of_map_const_eq_ok h
  | awaitKey x =>
    change (m.takeKey x).result = _ at h
    rw [takeKey] at h
    split at h <;> cases h
  | storeDecimal x | storeRegisters x | fillRegisters x =>
    have e := congrArg Outcome.result (afterTransfer_of_ok h)
    rw [show (afterTransfer _ _).result = _ from h] at e
    cases e
  | _ => cases h

/-- The address behind an instruction, while the program counter keeps its bound. -/
theorem toNat_following {m : Machine} (h : m.pc.toNat ≤ 0x10FE) :
    m.following.toNat = m.pc.toNat + 2 := by
  have h2 : (UInt16.ofNat Opcode.size).toNat = 2 := rfl
  rw [following, UInt16.toNat_add, h2]
  omega

/-- **Steps count in natural numbers** while the program counter keeps its bound. -/
theorem toNat_target {m : Machine} (h : m.pc.toNat ≤ 0x10FE) (step : Step) :
    (step.target m.following).toNat = step.place m.pc.toNat := by
  have hf := toNat_following h
  have h2 : (UInt16.ofNat Opcode.size).toNat = 2 := rfl
  cases step with
  | next => exact hf
  | skip => rw [Step.target, Step.place, UInt16.toNat_add, h2]; omega
  | again => rw [Step.target, Step.place, UInt16.toNat_sub, h2]; omega
  | jump a => rfl

/-! ## The invariant -/

/-- **The bounds of a machine**: the program counter has not wrapped around, return addresses stand
behind a call, and memory and screen have their sizes. -/
structure Bounded (m : Machine) : Prop where
  pc_le : m.pc.toNat ≤ 0x10FE
  calls : ∀ a ∈ m.memory.calls, 2 ≤ a.toNat ∧ a.toNat ≤ 0x1000
  memory : m.memory.toList.length = 4096
  buffer : m.screen.buffer.length = 2048
  pixel : ∀ b ∈ m.screen.buffer, b = 0 ∨ b = 1

/-- Memory and screen always have their sizes, so the counter and the calls are what is left. -/
theorem bounded_of {m : Machine} (hpc : m.pc.toNat ≤ 0x10FE)
    (hcalls : ∀ a ∈ m.memory.calls, 2 ≤ a.toNat ∧ a.toNat ≤ 0x1000) : m.Bounded where
  pc_le := hpc
  calls := hcalls
  memory := Vector.length_toList
  buffer := m.screen.length_buffer
  pixel _ hb := Screen.mem_buffer hb

/-- Power on puts the counter to the first instruction and drops all calls. -/
theorem bounded_reset (m : Machine) : m.reset.Bounded := by
  have hcalls : m.reset.memory.calls = [] := Memory.calls_writeBlock _ _ _
  refine bounded_of (show startAddress.toNat ≤ 0x10FE by decide) ?_
  rw [hcalls]
  exact fun a ha => absurd ha List.not_mem_nil

namespace Bounded

variable {m : Machine}

/-- What has the same counter and the same calls has the same bounds. -/
theorem congr (hm : m.Bounded) {m' : Machine} (hpc : m'.pc = m.pc)
    (hcalls : m'.memory.calls = m.memory.calls) : m'.Bounded :=
  bounded_of (hpc ▸ hm.pc_le) (hcalls ▸ hm.calls)

/-! ## Cycles -/

/-- A call leaves the address behind it, and a return drops one. -/
theorem callsAfter (hm : m.Bounded) (hpc : m.pc.toNat < 4095) (i : Instruction) {a : UInt16}
    (ha : a ∈ m.callsAfter i) : 2 ≤ a.toNat ∧ a.toNat ≤ 0x1000 := by
  have hf := toNat_following hm.pc_le
  cases i with
  | call nnn =>
    rcases List.mem_cons.1 ha with rfl | ha
    · omega
    · exact hm.calls a ha
  | ret => exact hm.calls a (List.mem_of_mem_tail ha)
  | _ => exact hm.calls a ha

/-- A step leads to the next instruction or the one after it, back, or where a jump goes. -/
theorem target_le (hm : m.Bounded) (hpc : m.pc.toNat < 4095) {step : Step}
    (hjump : ∀ a, step = .jump a → a.toNat ≤ 0x10FE ∨ a ∈ m.memory.calls) :
    (step.target m.following).toNat ≤ 0x10FE := by
  rw [toNat_target hm.pc_le]
  cases step with
  | next | skip | again => simp only [Step.place]; omega
  | jump a =>
    rcases hjump a rfl with h | h
    · exact h
    · have := (hm.calls a h).2
      exact Nat.le_trans this (by decide)

/-- **An instruction keeps the bounds.** -/
theorem perform (hm : m.Bounded) (hpc : m.pc.toNat < 4095) {i : Instruction} (hi : i.Fits) :
    (m.perform i).state.Bounded := by
  have hcalls : ∀ a ∈ (m.execute i).state.memory.calls, 2 ≤ a.toNat ∧ a.toNat ≤ 0x1000 := by
    rw [calls_execute]
    exact fun a ha => hm.callsAfter hpc i ha
  rcases h : (m.execute i).result with f | ⟨step, s⟩
  · rw [perform_of_error h]
    exact bounded_of (m.pc_execute i ▸ hm.pc_le) hcalls
  · rw [perform_of_ok h]
    exact bounded_of (hm.target_le hpc fun a ha => jump_execute hi (ha ▸ h)) hcalls

/-- **A cycle keeps the bounds**, whether it succeeds or fails. -/
theorem cycle (hm : m.Bounded) : m.cycle.state.Bounded := by
  refine cycle_cases (P := fun o => o.state.Bounded) m (fun _ _ => hm)
    (fun w _ _ => hm.congr rfl rfl) (fun w i hw hi => ?_)
  have hm' : (m.fetched w).Bounded := hm.congr rfl rfl
  exact hm'.perform (fetch_eq_ok_iff.1 hw).1 (Instruction.code_of_ofOpcode? hi).1

/-! ## Runs -/

/-- **Every event keeps the bounds.** -/
theorem handle (hm : m.Bounded) (e : Event) : (m.handle e).state.Bounded := by
  cases e with
  | load rom => exact hm.congr rfl (m.load_calls rom)
  | reset => exact m.bounded_reset
  | pollSpeaker age =>
    exact hm.congr (m.pollSpeaker_state (·.pc) age fun _ _ => rfl)
      (m.pollSpeaker_state (·.memory.calls) age fun _ _ => rfl)
  | cycle => exact hm.cycle
  | setKey | setKeys | attach | tickDelay | tickSound => exact hm.congr rfl rfl

/-- Every run keeps the bounds. -/
theorem run (hm : m.Bounded) (es : List Event) : (m.run es).state.Bounded := by
  induction es generalizing m with
  | nil => exact hm
  | cons e es ih => exact ih (hm.handle e)

end Bounded
end Machine

/-! ## Nothing wraps around -/

/-- How far the index register moves after the transfer of `V0` to `Vx`, counted in natural
numbers. -/
def IndexAdvance.count (advance : IndexAdvance) (x : Nat) : Nat :=
  match advance with
  | byCount => x + 1
  | byOne => 1
  | unchanged => 0

theorem IndexAdvance.toNat_amount (advance : IndexAdvance) {x : Nat} (hx : x < 16) :
    (advance.amount x).toNat = advance.count x := by
  cases advance with
  | byCount =>
    rw [amount, count, UInt16.toNat_add, UInt16.toNat_ofNat', UInt16.toNat_one]
    omega
  | byOne => rfl
  | unchanged => rfl

theorem IndexAdvance.count_le (advance : IndexAdvance) (x : Nat) : advance.count x ≤ x + 1 := by
  cases advance <;> simp [count]

/-- Whether an instruction transfers the registers up to `Vx`. -/
def Instruction.Transfers (i : Instruction) (x : Nat) : Prop :=
  i = .storeRegisters x ∨ i = .fillRegisters x

theorem Instruction.Transfers.fits_iff {i : Instruction} {x : Nat} (ht : i.Transfers x) :
    i.Fits ↔ x < 16 := by
  rcases ht with rfl | rfl <;> rfl

theorem Instruction.Transfers.span_eq {i : Instruction} {x : Nat} (ht : i.Transfers x) :
    i.span = x + 1 := by
  rcases ht with rfl | rfl <;> rfl

namespace Machine

/-- An instruction that succeeds found its bytes in memory. -/
theorem add_span_le_of_ok {m : Machine} {i : Instruction} (hi : i.Fits) {v : Step × Signal}
    (h : (m.execute i).result = .ok v) : i.span = 0 ∨ m.i.toNat + i.span ≤ 4096 := by
  have hf : m.executeFault? i = none := by rw [← faultOf?_execute m hi, h]; rfl
  rw [executeFault?] at hf
  split at hf
  · cases hf
  · rw [blockFault?] at hf
    split at hf
    · cases hf
    · omega

/-- The index register does not wrap around behind a block in memory. -/
theorem toNat_add_amount {m : Machine} {x : Nat} (hx : x < 16) (hin : m.i.toNat + x < 4096) :
    (m.i + m.dialect.advance.amount x).toNat = m.i.toNat + m.dialect.advance.count x := by
  have hle := m.dialect.advance.count_le x
  rw [UInt16.toNat_add, IndexAdvance.toNat_amount _ hx]
  omega

/-- **Where the index register is after a transfer.** -/
theorem toNat_i_execute {m : Machine} {i : Instruction} (hi : i.Fits) {x : Nat}
    (ht : i.Transfers x) {v : Step × Signal} (h : (m.execute i).result = .ok v) :
    (m.execute i).state.i.toNat = m.i.toNat + m.dialect.advance.count x := by
  have hspan := ht.span_eq
  have hstate : (m.execute i).state.i = m.i + m.dialect.advance.amount x := by
    rcases ht with rfl | rfl <;>
      exact congrArg (fun o => o.state.i) (afterTransfer_of_ok h)
  have hin := add_span_le_of_ok hi h
  rw [hstate, toNat_add_amount (ht.fits_iff.1 hi) (by omega)]

/-- **Nothing wraps around**: the sums and differences of a cycle are those of natural numbers. -/
structure Unwrapped (m : Machine) : Prop where
  /-- Behind the first byte of an instruction. -/
  next : (m.pc + 1).toNat = m.pc.toNat + 1
  /-- Behind the second byte of an instruction. -/
  following : m.following.toNat = m.pc.toNat + 2
  /-- Behind a skipped instruction, and back to one that is run again. -/
  target : ∀ step : Step, (step.target m.following).toNat = step.place m.pc.toNat
  /-- Behind a transfer that succeeds. -/
  advance : ∀ w i x s, m.fetch = .ok w → Instruction.ofOpcode? w = some i → i.Transfers x →
    m.cycle.result = .ok s → m.cycle.state.i.toNat = m.i.toNat + m.dialect.advance.count x

theorem Bounded.unwrapped {m : Machine} (hm : m.Bounded) : m.Unwrapped where
  next := by
    have := hm.pc_le
    rw [UInt16.toNat_add, UInt16.toNat_one]
    omega
  following := toNat_following hm.pc_le
  target := toNat_target hm.pc_le
  advance w i x s hw hi ht hs := by
    rw [cycle_eq_perform hw hi] at hs ⊢
    have hfits := (Instruction.code_of_ofOpcode? hi).1
    rcases h : ((m.fetched w).execute i).result with f | ⟨step, s'⟩
    · rw [perform_of_error h] at hs
      cases hs
    · rw [perform_of_ok h]
      exact toNat_i_execute hfits ht h

/-- **Every run of a new machine** stays within the bounds, and nothing in it wraps around: for
every dialect, every source of random bytes, and whatever the host does and the program is. -/
theorem bounded_run_new (dialect : Dialect) (random : RandomSource) (cycleDelay : Option Nat)
    (es : List Event) :
    (((new dialect random cycleDelay).run es).state).Bounded ∧
      (((new dialect random cycleDelay).run es).state).Unwrapped := by
  have hnew : (new dialect random cycleDelay).Bounded := bounded_reset _
  exact ⟨hnew.run es, (hnew.run es).unwrapped⟩

end Machine
end Chip8
