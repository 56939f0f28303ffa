import Chip8.Proofs.Cycle.Bounds

/-!
# What a failed cycle leaves behind

A cycle that fails puts the program counter back, but what it did before it failed stays.  Only four
kinds of instructions have done anything by then: the two that write a block of memory, the one that
reads a block into registers, and the one that draws a sprite.  Each of them has handled the bytes
whose addresses exist, `I + k` below `4096`, and nothing else of the machine has changed.

A sprite that runs over the end of memory is special, as its rows are both read and drawn.  What it
leaves is what the shorter sprite would leave that ends with the last byte.

## What is here

* `Machine.Wreck`, `Machine.wreck_of_error` — the instructions that can fail, and the machine each of
  them leaves.
* `Machine.SameRest` — all that a failed cycle leaves alone.
* `Memory.Overlaid`, `Machine.Attempted` — what it may have changed, for each instruction.
* `Machine.footprint_of_error` — the footprint of a failed cycle.
-/

set_option autoImplicit false

namespace Chip8

/-! ## Blocks that run over the end of memory -/

/-- Memory `after` is memory `before` with the bytes of a block from `start` on, as far as there are
addresses for them. -/
def Memory.Overlaid (before : Memory) (start : Nat) (block : List UInt8) (after : Memory) : Prop :=
  ∀ a, after.bytes[a]? =
    if start ≤ a ∧ a < start + block.length ∧ a < 4096 then block[a - start]? else before.bytes[a]?

/-- A block that runs over the end of memory reads like one that ends there. -/
theorem Memory.readBlock_fst_of_le (m : Memory) {start n : Nat} (h : 4096 ≤ start + n) :
    (m.readBlock start n).1 = m.toList.drop start := by
  rw [readBlock_fst, List.take_of_length_le]
  rw [List.length_drop, toList, Vector.length_toList]
  omega

/-- Registers filled from a block are those whose bytes exist. -/
theorem Registers.get_fill_readBlock (r : Registers) (m : Memory) (start n k : Nat) (hn : n ≤ 16) :
    (r.fill (m.readBlock start n).1).get k =
      if k < n ∧ start + k < 4096 then m.bytes[start + k]?.getD 0 else r.get k := by
  have hblock : (m.readBlock start n).1[k]? = if k < n then m.bytes[start + k]? else none := by
    rw [Memory.readBlock_fst, List.getElem?_take, List.getElem?_drop, Memory.toList,
      Vector.getElem?_toList]
  rw [fill, get_fillFrom, Nat.sub_zero, hblock]
  by_cases hk : k < n
  · rw [if_pos ⟨Nat.zero_le k, by omega⟩, if_pos hk]
    by_cases ha : start + k < 4096
    · rw [if_pos ⟨hk, ha⟩, Vector.getElem?_eq_getElem ha]
      rfl
    · rw [if_neg fun h => ha h.2, Vector.getElem?_eq_none (Nat.le_of_not_lt ha)]
      rfl
  · rw [if_neg hk, Option.getD_none, ite_self, if_neg fun h => hk h.1]

theorem Registers.get_setFlag (r : Registers) (b : UInt8) : (r.setFlag b).get flag = b := by
  rw [setFlag, get_set, if_pos (by decide)]

theorem Registers.get_setFlag_of_ne (r : Registers) (b : UInt8) {k : Nat} (hk : k ≠ flag) :
    (r.setFlag b).get k = r.get k := by
  rw [setFlag, get_set, if_neg fun h => hk h.1]

namespace Machine

/-! ## Instructions that fail -/

/-- A transfer that fails ends the instruction. -/
theorem afterTransfer_of_error {transfer : Machine × Except Fault Unit} {after : Machine → Machine}
    {f : Fault} (h : (afterTransfer transfer after).result = .error f) :
    (afterTransfer transfer after).state = transfer.1 := by
  rw [afterTransfer] at h ⊢
  rcases ht : transfer.2 with g | ⟨⟩
  · rfl
  · rw [ht] at h
    cases h

/-- What the instructions that can fail leave behind when they do. -/
inductive Wreck (m : Machine) : Instruction → Machine → Prop
  /-- There is no call to return from. -/
  | ret : Wreck m .ret m
  /-- Some rows of the sprite are missing. -/
  | draw (x y : Nat) (n : UInt8) (h : 0 < n.toNat ∧ 4096 < m.i.toNat + n.toNat) :
    Wreck m (.draw x y n) (m.drawSprite x y n.toNat).state
  /-- There are not enough addresses for the digits. -/
  | storeDecimal (x : Nat) :
    Wreck m (.storeDecimal x) (m.storeBytes (decimalDigits (m.v.get x))).1
  /-- There are not enough addresses for the registers. -/
  | storeRegisters (x : Nat) :
    Wreck m (.storeRegisters x) (m.storeBytes (m.v.take (x + 1))).1
  /-- There are not enough bytes for the registers. -/
  | fillRegisters (x : Nat) : Wreck m (.fillRegisters x) (m.fillBytes (x + 1)).1

/-- **Which instructions can fail, and what they leave.** -/
theorem wreck_of_error {m : Machine} {i : Instruction} {f : Fault}
    (h : (m.execute i).result = .error f) : m.Wreck i (m.execute i).state := by
  cases i with
  | ret =>
    have hstate : m.leave.state = m := by
      change m.leave.result = _ at h
      rw [leave] at h ⊢
      cases hpop : m.memory.pop with
      | error g => rfl
      | ok popped => rw [hpop] at h; cases h
    change m.Wreck .ret m.leave.state
    rw [hstate]
    exact .ret
  | draw x y n =>
    have hfault : blockFault? m.i.toNat n.toNat = some f := by
      rw [← faultOf?_readBlock m.memory, ← faultOf?_drawSprite m x y, faultOf?_eq_some_iff]
      exact h
    rw [blockFault?] at hfault
    split at hfault
    next hover => exact .draw x y n hover
    next => cases hfault
  | storeDecimal x =>
    have hstate := afterTransfer_of_error h
    exact hstate ▸ .storeDecimal x
  | storeRegisters x =>
    have hstate := afterTransfer_of_error h
    exact hstate ▸ .storeRegisters x
  | fillRegisters x =>
    have hstate := afterTransfer_of_error h
    exact hstate ▸ .fillRegisters x
  | awaitKey x =>
    have hfault : faultOf? (m.takeKey x).result = some f := faultOf?_eq_some_iff.2 h
    rw [faultOf?_takeKey] at hfault
    cases hfault
  | _ => cases h

/-! ## What a failed cycle leaves alone -/

/-- Two machines agree on all but the bytes of memory, the registers, the screen and the word fetched
last. -/
structure SameRest (m m' : Machine) : Prop where
  pc : m'.pc = m.pc
  i : m'.i = m.i
  calls : m'.memory.calls = m.memory.calls
  keypad : m'.keypad = m.keypad
  delay : m'.delay = m.delay
  sound : m'.sound = m.sound
  speakers : m'.speakers = m.speakers
  dialect : m'.dialect = m.dialect
  random : m'.random = m.random
  cycleDelay : m'.cycleDelay = m.cycleDelay

theorem SameRest.refl (m : Machine) : m.SameRest m :=
  ⟨rfl, rfl, rfl, rfl, rfl, rfl, rfl, rfl, rfl, rfl⟩

variable {m m' : Machine} {i : Instruction}

theorem Wreck.sameRest (h : m.Wreck i m') : m.SameRest m' := by
  have hrefl := SameRest.refl m
  cases h with
  | ret => exact hrefl
  | draw x y n => exact { hrefl with }
  | storeDecimal x | storeRegisters x => exact { hrefl with calls := m.storeBytes_calls _ }
  | fillRegisters x => exact { hrefl with }

theorem Wreck.opcode (h : m.Wreck i m') : m'.opcode = m.opcode := by
  cases h <;> rfl

/-! ## What a failed cycle may have changed -/

/-- **What an instruction that fails has done** to memory, registers and screen: the part of its
work for which there are addresses.  Digits are bytes below ten, and registers are stored one by
one. -/
def Attempted (m : Machine) : Option Instruction → Machine → Prop
  | some (.storeDecimal x), m' =>
    (∃ hundreds tens ones : UInt8, hundreds.toNat < 10 ∧ tens.toNat < 10 ∧ ones.toNat < 10 ∧
      100 * hundreds.toNat + 10 * tens.toNat + ones.toNat = (m.v.get x).toNat ∧
      m.memory.Overlaid m.i.toNat [hundreds, tens, ones] m'.memory) ∧
        m'.v = m.v ∧ m'.screen = m.screen
  | some (.storeRegisters x), m' =>
    (∀ a : Nat, m'.memory.bytes[a]? =
      if m.i.toNat ≤ a ∧ a ≤ m.i.toNat + x ∧ a < 4096 then some (m.v.get (a - m.i.toNat))
      else m.memory.bytes[a]?) ∧ m'.v = m.v ∧ m'.screen = m.screen
  | some (.fillRegisters x), m' =>
    m'.memory = m.memory ∧ m'.screen = m.screen ∧
      ∀ k, m'.v.get k =
        if k ≤ x ∧ m.i.toNat + k < 4096 then m.memory.bytes[m.i.toNat + k]?.getD 0 else m.v.get k
  | some (.draw x y n), m' =>
    let shorter := m.execute (.draw x y (UInt8.ofNat (4096 - m.i.toNat)))
    4096 - m.i.toNat < n.toNat ∧ shorter.result = .ok (.next, .redraw) ∧
      m'.memory = m.memory ∧ m'.screen = shorter.state.screen ∧
      m'.v = m.v.setFlag (shorter.state.v.get Registers.flag) ∧
      (4096 ≤ m.i.toNat → m'.screen = m.screen ∧ m'.v = m.v.setFlag 0)
  | _, m' => m'.memory = m.memory ∧ m'.v = m.v ∧ m'.screen = m.screen

/-- What a drawing leaves depends on the rows it finds. -/
theorem drawSprite_state_congr {n n' : Nat} (x y : Nat)
    (h : (m.memory.readBlock m.i.toNat n).1 = (m.memory.readBlock m.i.toNat n').1) :
    (m.drawSprite x y n).state = (m.drawSprite x y n').state := by
  simp only [drawSprite, h]

/-- A sprite that ends with the last byte of memory is drawn without a fault. -/
theorem drawSprite_result_of_le {n : Nat} (x y : Nat) (h : n = 0 ∨ m.i.toNat + n ≤ 4096) :
    (m.drawSprite x y n).result = .ok (.next, .redraw) := by
  have hfault : faultOf? (m.drawSprite x y n).result = none := by
    rw [faultOf?_drawSprite, faultOf?_readBlock, blockFault?, if_neg (by omega)]
  obtain ⟨v, hv⟩ := faultOf?_eq_none_iff.1 hfault
  rw [hv, ← eq_of_map_const_eq_ok hv]

/-- A sprite that runs over the end of memory leaves what the shorter one leaves that ends there. -/
theorem attempted_draw (x y : Nat) {n : UInt8}
    (h : 0 < n.toNat ∧ 4096 < m.i.toNat + n.toNat) :
    m.Attempted (some (.draw x y n)) (m.drawSprite x y n.toNat).state := by
  have hn := n.toNat_lt
  have hrows : (UInt8.ofNat (4096 - m.i.toNat)).toNat = 4096 - m.i.toNat := by
    rw [UInt8.toNat_ofNat']
    omega
  have hblock : (m.memory.readBlock m.i.toNat n.toNat).1 =
      (m.memory.readBlock m.i.toNat (4096 - m.i.toNat)).1 := by
    rw [Memory.readBlock_fst_of_le _ (by omega), Memory.readBlock_fst_of_le _ (by omega)]
  have hstate := drawSprite_state_congr x y hblock
  simp only [Attempted, execute, hrows]
  refine ⟨by omega, drawSprite_result_of_le x y (by omega), rfl, by rw [hstate], ?_, fun hout => ?_⟩
  · rw [hstate, drawSprite, Registers.get_setFlag]
  · rw [hstate, Nat.sub_eq_zero_of_le hout]
    exact ⟨rfl, rfl⟩

/-- Digits that do not all fit leave those that do. -/
theorem attempted_storeDecimal (m : Machine) (x : Nat) :
    m.Attempted (some (.storeDecimal x)) (m.storeBytes (decimalDigits (m.v.get x))).1 := by
  obtain ⟨hhundreds, htens, hones, hvalue⟩ := decimalDigits_eq_iff.mp (Eq.refl _)
  have hwritten := Memory.getElem?_writeBlock m.memory m.i.toNat (decimalDigits (m.v.get x))
  exact ⟨⟨_, _, _, hhundreds, htens, hones, hvalue, hwritten⟩, rfl, rfl⟩

/-- **Registers are stored one by one**, as long as there are addresses. -/
theorem bytes_storeBytes_take (m : Machine) {x : Nat} (hx : x < 16) (a : Nat) :
    (m.storeBytes (m.v.take (x + 1))).1.memory.bytes[a]? =
      if m.i.toNat ≤ a ∧ a ≤ m.i.toNat + x ∧ a < 4096 then some (m.v.get (a - m.i.toNat))
      else m.memory.bytes[a]? := by
  have hlength : (m.v.take (x + 1)).length = x + 1 := Registers.length_take _ hx
  rw [storeBytes, Memory.getElem?_writeBlock, hlength, Registers.getElem?_take _ hx]
  by_cases ha : m.i.toNat ≤ a ∧ a ≤ m.i.toNat + x ∧ a < 4096
  · rw [if_pos (by omega), if_pos (by omega), if_pos ha]
  · rw [if_neg (by omega), if_neg ha]

theorem Wreck.attempted (h : m.Wreck i m') (hi : i.Fits) : m.Attempted (some i) m' := by
  cases h with
  | ret => exact ⟨rfl, rfl, rfl⟩
  | draw x y n hover => exact attempted_draw x y hover
  | storeDecimal x => exact attempted_storeDecimal m x
  | storeRegisters x => exact ⟨m.bytes_storeBytes_take hi, rfl, rfl⟩
  | fillRegisters x =>
    refine ⟨rfl, rfl, fun k => ?_⟩
    have hle : k < x + 1 ↔ k ≤ x := Nat.lt_succ_iff
    have hfill := m.v.get_fill_readBlock m.memory m.i.toNat (x + 1) k hi
    simp only [hle] at hfill
    exact hfill

/-! ## Cycles that fail -/

/-- The instruction at the program counter, if both of its bytes lie in memory and the decode table
has a row for it. -/
def next? (m : Machine) : Option Instruction :=
  if m.pc.toNat + 1 < 4096 then Instruction.ofOpcode? (m.memory.word m.pc.toNat) else none

/-- The word that was fetched last when a cycle ends. -/
def opcodeAfter (m : Machine) : Opcode :=
  if m.pc.toNat + 1 < 4096 then m.memory.word m.pc.toNat else m.opcode

theorem next?_of_fetch {w : Opcode} (hw : m.fetch = .ok w) : m.next? = Instruction.ofOpcode? w := by
  obtain ⟨hpc, rfl⟩ := fetch_eq_ok_iff.1 hw
  exact if_pos (by omega)

theorem opcodeAfter_of_fetch {w : Opcode} (hw : m.fetch = .ok w) : m.opcodeAfter = w := by
  obtain ⟨hpc, rfl⟩ := fetch_eq_ok_iff.1 hw
  exact if_pos (by omega)

theorem not_lt_of_fetch {f : Fault} (h : m.fetch = .error f) : ¬ m.pc.toNat + 1 < 4096 := by
  intro hlt
  rw [fetch_eq_ok_iff.2 ⟨by omega, rfl⟩] at h
  cases h

/-- **The ends of a cycle that fails**: there is no instruction, and nothing but the word fetched
last has changed; or there is one that can fail, and it leaves what such an instruction leaves. -/
theorem failed_cases {f : Fault} (h : m.cycle.result = .error f) :
    (m.next? = none ∧ m.cycle.state = m.fetched m.opcodeAfter) ∨
      ∃ i, m.next? = some i ∧ i.Fits ∧ (m.fetched m.opcodeAfter).Wreck i m.cycle.state := by
  revert h
  refine cycle_cases (P := fun o => o.result = .error f → (m.next? = none ∧
    o.state = m.fetched m.opcodeAfter) ∨
      ∃ i, m.next? = some i ∧ i.Fits ∧ (m.fetched m.opcodeAfter).Wreck i o.state) m
    (fun g hg _ => ?unfetched) (fun w hw hi _ => ?undecoded) (fun w i hw hi h => ?performed)
  case unfetched =>
    have hpc := not_lt_of_fetch hg
    refine .inl ⟨if_neg hpc, ?_⟩
    rw [opcodeAfter, if_neg hpc]
    rfl
  case undecoded =>
    rw [next?_of_fetch hw, opcodeAfter_of_fetch hw]
    exact .inl ⟨hi, rfl⟩
  case performed =>
    rw [next?_of_fetch hw, opcodeAfter_of_fetch hw]
    have herror : ((m.fetched w).execute i).result = .error f := by
      rw [← faultOf?_eq_some_iff, ← faultOf?_perform, h]
      rfl
    rw [perform_of_error herror]
    exact .inr ⟨i, hi, (Instruction.code_of_ofOpcode? hi).1, wreck_of_error herror⟩

/-- **The footprint of a failed cycle.**  Program counter, index register, call stack, keypad,
timers, speakers, dialect and random bytes are as before.  The word fetched last is the one at the
program counter if both of its bytes lie in memory.  Memory, registers and screen show the part of
the instruction's work for which there are addresses, and no other change. -/
theorem footprint_of_error {f : Fault} (h : m.cycle.result = .error f) :
    m.SameRest m.cycle.state ∧
      (m.cycle.state.opcode =
        if m.pc.toNat + 1 < 4096 then m.memory.word m.pc.toNat else m.opcode) ∧
      m.Attempted m.next? m.cycle.state := by
  have hfetched : m.SameRest (m.fetched m.opcodeAfter) := { SameRest.refl m with }
  obtain ⟨hnext, hstate⟩ | ⟨i, hnext, hi, hwreck⟩ := failed_cases h
  · rw [hnext, hstate]
    exact ⟨hfetched, rfl, rfl, rfl, rfl⟩
  · rw [hnext]
    have hrest := hwreck.sameRest
    exact ⟨{ hrest with }, hwreck.opcode, hwreck.attempted hi⟩

/-- A machine whose program stores a row of eight pixels at the last address of memory, and draws a
sprite of two rows from there. -/
@[irreducible]
def overhanging : Machine :=
  ((new default default none).load
    [0x60, 0xFF, 0xAF, 0xFF, 0xF0, 0x55, 0xAF, 0xFF, 0xD0, 0x02]).state

/-- That machine when it is about to draw the sprite. -/
@[irreducible]
def cutOff : Machine := (overhanging.cycles 4).state

/-- A machine that is about to store the digits of `157`, with two addresses left for them. -/
@[irreducible]
def spilling : Machine :=
  (((new default default none).load [0x60, 0x9D, 0xAF, 0xFE, 0xF0, 0x33]).state.cycles 2).state

theorem footprint_of_cutOff :
    (cutOff.cycle.result = .error (.addressOutOfBounds 4096 4096) ∧
      cutOff.next? = some (.draw 0 0 2) ∧ cutOff.SameRest cutOff.cycle.state ∧
      cutOff.Attempted (some (.draw 0 0 2)) cutOff.cycle.state) ∧
    (spilling.cycle.result = .error (.addressOutOfBounds 4096 4096) ∧
      spilling.next? = some (.storeDecimal 0) ∧ spilling.v.get 0 = 157 ∧
      spilling.Attempted (some (.storeDecimal 0)) spilling.cycle.state ∧
      spilling.cycle.state.memory.bytes[4094]? = some 1 ∧
      spilling.cycle.state.memory.bytes[4095]? = some 5) := by
  have hsprite : cutOff.cycle.result = .error (.addressOutOfBounds 4096 4096) :=
    faultOf?_eq_some_iff.1 (by decide +kernel)
  have hdraw : cutOff.next? = some (.draw 0 0 2) := by decide +kernel
  have hdigits : spilling.cycle.result = .error (.addressOutOfBounds 4096 4096) :=
    faultOf?_eq_some_iff.1 (by decide +kernel)
  have hstore : spilling.next? = some (.storeDecimal 0) := by decide +kernel
  obtain ⟨hrest, -, hdrawn⟩ := footprint_of_error hsprite
  obtain ⟨-, -, hstored⟩ := footprint_of_error hdigits
  rw [hdraw] at hdrawn
  rw [hstore] at hstored
  exact ⟨⟨hsprite, hdraw, hrest, hdrawn⟩, hdigits, hstore, by decide +kernel, hstored,
    by decide +kernel, by decide +kernel⟩

end Machine
end Chip8
