import Chip8.Proofs.Run.Background
import Chip8.Proofs.Run.Locality

/-!
# Trying again

A cycle that fails leaves the program counter where it is, so the next one tries the same thing
again.  But it does so on another machine: rows of a sprite are drawn, registers are filled, memory
is written.  None of this matters to the fault, which depends on four things only: the program
counter, the word it points to, the index register, and whether the program is in a call.  The first,
the third and the last are left alone by a cycle that fails.

That leaves the word.  An instruction that fails while it writes memory may have written over itself,
and then the next cycle runs something else.  If it has not done so at the first attempt it never
will: a further attempt writes the same bytes to the same place.  So a fault is final, except for
this one case, and timers, keys and sound have nothing to do with it.

## What is here

* `Machine.OverwritesItself` — the one case in which the next cycle may go another way.
* `Machine.Stuck` — the next cycle fails, and the word it failed at stays.
* `Stuck.cycle`, `Stuck.handle`, `Stuck.run` — a further attempt, an event, a list of events.
* `Machine.retries_fail` — whatever happens after a failure, the next cycle fails as well.
-/

set_option autoImplicit false

namespace Chip8
namespace Machine

variable {m n : Machine} {f : Fault} {p : UInt16}

/-! ## What a failed cycle leaves for the next one -/

/-- **The cycle overwrites itself**: its instruction is `FX33` or `FX55`, and what that writes changes
one of the two bytes that it was fetched from. -/
def OverwritesItself (m : Machine) : Prop :=
  (∃ x, m.next? = some (.storeDecimal x) ∨ m.next? = some (.storeRegisters x)) ∧
    ∃ a, (a = m.pc.toNat ∨ a = m.pc.toNat + 1) ∧
      m.cycle.state.memory.bytes[a]? ≠ m.memory.bytes[a]?

theorem sameRest_of_error (h : m.cycle.result = .error f) : m.SameRest m.cycle.state := by
  have hfetched : m.SameRest (m.fetched m.opcodeAfter) := { SameRest.refl m with }
  obtain ⟨-, hstate⟩ | ⟨i, -, -, hwreck⟩ := failed_cases h
  · exact hstate ▸ hfetched
  · have hrest := hwreck.sameRest
    exact { hrest with }

/-- A machine with the same counters, the same calls and the same word at the program counter faces
the same fault. -/
theorem fault_congr (hpc : n.pc = m.pc) (hword : n.memory.word n.pc.toNat = m.memory.word m.pc.toNat)
    (hi : n.i = m.i) (hcalls : n.memory.calls = m.memory.calls) (h : m.cycle.result = .error f) :
    n.cycle.result = .error f := by
  rw [← faultOf?_eq_some_iff, faultOf?_cycle] at h ⊢
  rw [← h, cycleFault?, cycleFault?, hword, hpc, hi, hcalls]

/-- A cycle that fails fills registers or writes memory, but not both. -/
theorem block_of_error {i : Instruction} (h : m.cycle.result = .error f) (hnext : m.next? = some i) :
    m.cycle.state.block i = m.block i := by
  obtain ⟨hnone, -⟩ | ⟨j, hj, -, hwreck⟩ := failed_cases h
  · cases hnone.symm.trans hnext
  · obtain rfl : j = i := Option.some.inj (hj.symm.trans hnext)
    revert hwreck
    generalize m.cycle.state = m'
    intro hwreck
    cases hwreck <;> rfl

/-- The next cycle overwrites itself, or keeps the word that it was fetched from. -/
theorem bytes_cycle_of_not (hself : ¬ m.OverwritesItself) {a : Nat}
    (ha : a = m.pc.toNat ∨ a = m.pc.toNat + 1) :
    m.cycle.state.memory.bytes[a]? = m.memory.bytes[a]? := by
  by_cases hstores : ∃ x, m.next? = some (.storeDecimal x) ∨ m.next? = some (.storeRegisters x)
  · exact Decidable.of_not_not fun hne => hself ⟨hstores, a, ha, hne⟩
  · have hnothing : m.next?.elim [] m.block = [] := by
      cases hnext : m.next? with
      | none => rfl
      | some i =>
        cases i with
        | storeDecimal x => exact absurd ⟨x, .inl hnext⟩ hstores
        | storeRegisters x => exact absurd ⟨x, .inr hnext⟩ hstores
        | _ => rfl
    have hbytes := m.overlaid_cycle a
    rw [hnothing] at hbytes
    exact hbytes.trans (if_neg fun h => Nat.not_lt.2 h.1 h.2.1)

/-! ## Machines that are stuck -/

/-- **A machine is stuck** at an address with a fault: the cycle there fails with it, and does not
touch the word that it failed at. -/
structure Stuck (m : Machine) (p : UInt16) (f : Fault) : Prop where
  pc : m.pc = p
  fault : m.cycle.result = .error f
  kept : ∀ a, a = p.toNat ∨ a = p.toNat + 1 →
    m.cycle.state.memory.bytes[a]? = m.memory.bytes[a]?

namespace Stuck

theorem pc_cycle (h : m.Stuck p f) : m.cycle.state.pc = p :=
  (sameRest_of_error h.fault).pc.trans h.pc

theorem word_cycle (h : m.Stuck p f) :
    m.cycle.state.memory.word m.cycle.state.pc.toNat = m.memory.word m.pc.toNat := by
  rw [h.pc_cycle, h.pc, Memory.word, Memory.word, h.kept _ (.inl rfl), h.kept _ (.inr rfl)]

/-- **A further attempt fails the same way**, and finds all that it writes written. -/
theorem cycle (h : m.Stuck p f) : m.cycle.state.Stuck p f := by
  have hrest := sameRest_of_error h.fault
  refine ⟨h.pc_cycle, fault_congr hrest.pc h.word_cycle hrest.i hrest.calls h.fault, fun a ha => ?_⟩
  have hnext : m.cycle.state.next? = m.next? := by
    rw [next?, next?, h.word_cycle, hrest.pc]
  have hblock : m.cycle.state.next?.elim [] m.cycle.state.block = m.next?.elim [] m.block := by
    rw [hnext]
    cases hi : m.next? with
    | none => rfl
    | some i => exact block_of_error h.fault hi
  have hfirst := m.overlaid_cycle a
  have hsecond := m.cycle.state.overlaid_cycle a
  rw [hblock, hrest.i] at hsecond
  rw [hsecond]
  split
  next hin => rw [hfirst, if_pos hin]
  next => rfl

/-- What is stuck depends on the core of a machine. -/
theorem congr (h : m.Stuck p f) (hcore : m.core = n.core) : n.Stuck p f := by
  have hn : n = m.withDevices n.devices := eq_withDevices hcore
  generalize n.devices = d at hn
  subst hn
  refine ⟨h.pc, fault_congr (m := m) rfl rfl rfl rfl h.fault, fun a ha => ?_⟩
  have hbytes := (overlaid_cycle (m.withDevices d) a).trans (m.overlaid_cycle a).symm
  exact hbytes.trans (h.kept a ha)

/-- **No event helps**, as long as the power stays on and no program is loaded. -/
theorem handle (h : m.Stuck p f) {e : Event} (hreset : e ≠ .reset) (hload : ∀ rom, e ≠ .load rom) :
    (m.handle e).state.Stuck p f := by
  cases e with
  | reset => exact absurd rfl hreset
  | load rom => exact absurd rfl (hload rom)
  | cycle => exact h.cycle
  | attach sound => exact h.congr rfl
  | tickDelay | tickSound | pollSpeaker | setKey | setKeys => exact h.congr (core_handle rfl).symm

/-- A machine stays stuck, whatever happens. -/
theorem run (h : m.Stuck p f) {es : List Event} (hreset : .reset ∉ es)
    (hload : ∀ rom, .load rom ∉ es) : (m.run es).state.Stuck p f := by
  induction es generalizing m with
  | nil => exact h
  | cons e es ih =>
    rw [List.mem_cons, not_or] at hreset
    simp only [List.mem_cons, not_or] at hload
    exact ih (h.handle (Ne.symm hreset.1) fun rom => Ne.symm (hload rom).1) hreset.2
      fun rom => (hload rom).2

end Stuck

/-! ## Final faults -/

/-- **A fault is final.**  After a cycle that failed, and did not overwrite itself in doing so, let
anything happen but that the power is switched or a program is loaded: cycles, timers, keys, sound.
Then the program counter is still the same, the next cycle fails with the same fault, and it leaves
the program counter where it is. -/
theorem retries_fail (h : m.cycle.result = .error f) (hself : ¬ m.OverwritesItself)
    {es : List Event} (hreset : .reset ∉ es) (hload : ∀ rom, .load rom ∉ es) :
    let m' := (m.cycle.state.run es).state
    m'.pc = m.pc ∧ m'.cycle.result = .error f ∧ m'.cycle.state.pc = m.pc := by
  intro m'
  have hstuck : m.Stuck m.pc f := ⟨rfl, h, fun _ ha => bytes_cycle_of_not hself ha⟩
  have hafter : m'.Stuck m.pc f := hstuck.cycle.run hreset hload
  exact ⟨hafter.pc, hafter.fault, hafter.pc_cycle⟩

/-- A machine that is about to store two registers at the last address of memory. -/
@[irreducible]
def brimming : Machine :=
  ((new default default none).load [0xAF, 0xFF, 0xF1, 0x55]).state.cycle.state

theorem retries_fail_brimming :
    let m' := (brimming.cycle.state.run [.cycle, .tickDelay, .setKey 3 true, .cycle]).state
    brimming.cycle.result = .error (.addressOutOfBounds 4096 4096) ∧
      brimming.next? = some (.storeRegisters 1) ∧ ¬ brimming.OverwritesItself ∧
      m'.pc = 0x202 ∧ m'.cycle.result = .error (.addressOutOfBounds 4096 4096) := by
  intro m'
  have hfault : brimming.cycle.result = .error (.addressOutOfBounds 4096 4096) :=
    faultOf?_eq_some_iff.1 (by decide +kernel)
  have hpc : brimming.pc = 0x202 := by decide +kernel
  have hself : ¬ brimming.OverwritesItself := by
    rintro ⟨-, a, ha, hne⟩
    rw [hpc] at ha
    rcases ha with rfl | rfl
    · exact hne (by decide +kernel)
    · exact hne (by decide +kernel)
  have hreset : Event.reset ∉ [Event.cycle, .tickDelay, .setKey 3 true, .cycle] := by simp
  have hload : ∀ rom, Event.load rom ∉ [Event.cycle, .tickDelay, .setKey 3 true, .cycle] := by simp
  obtain ⟨hstill, hagain, -⟩ := retries_fail hfault hself hreset hload
  exact ⟨hfault, by decide +kernel, hself, hstill.trans hpc, hagain⟩

/-- A machine that stores three registers over its own instruction at the end of memory. -/
def recovering : Machine :=
  let m := new default default none
  { m with
    memory := { m.memory with bytes := (m.memory.bytes.set 0xFFE 0xF2).set 0xFFF 0x55 }
    v := Registers.zero.set 1 0xE0
    i := 0xFFE
    pc := 0xFFE }

-- the third register has no address, but the first two have become a word that can be executed
example :
    faultOf? recovering.cycle.result = some (.addressOutOfBounds 4096 4096) ∧
      faultOf? recovering.cycle.state.cycle.result = none := by
  decide +kernel

end Machine
end Chip8
