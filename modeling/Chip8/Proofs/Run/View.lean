import Chip8.Machine.Event
import Chip8.Proofs.Cycle.Devices

/-!
# What a program can see of its machine

A program sees the core of its machine, the keys, the delay timer, the dialect, and the random bytes
that are still to come.  It does not see the sound timer, the speakers, how long the host waits
after a cycle, or how many random bytes were used up before.  Machines that differ in such things
only are told apart by no event, as long as it does not concern the sound: every event has the same
result and makes the same records on both, and leaves two machines that look the same again.

## What is here

* `Machine.SameView` — two machines look the same to a program.
* `Outcome.Matches` — two outcomes with related states, the same result and the same records.
* `SameView.cycle`, `SameView.handle` — one cycle, and one event, of machines that look the same.
* `SameView.of_forSound` — what concerns the sound cannot be seen.
-/

set_option autoImplicit false

namespace Chip8

/-! ## Random bytes -/

namespace RandomSource

/-- A draw takes the first of the bytes that are still to come. -/
theorem remaining_draw (r : RandomSource) : r.draw.2.remaining = fun k => r.remaining (k + 1) := by
  funext k
  change r.stream (r.used + 1 + k) = r.stream (r.used + (k + 1))
  rw [Nat.add_assoc, Nat.add_comm 1 k]

end RandomSource

/-! ## Machines that look the same -/

/-- Two outcomes with the same result and the same records, and states that are related. -/
structure Outcome.Matches {σ α : Type} (related : σ → σ → Prop) (o o' : Outcome σ α) : Prop where
  state : related o.state o'.state
  result : o.result = o'.result
  log : o.log = o'.log

namespace Machine

/-- **Two machines look the same to a program.** -/
structure SameView (m n : Machine) : Prop where
  core : m.core = n.core
  keypad : m.keypad = n.keypad
  delay : m.delay = n.delay
  dialect : m.dialect = n.dialect
  remaining : m.random.remaining = n.random.remaining

variable {m n : Machine}

theorem SameView.refl (m : Machine) : m.SameView m := ⟨rfl, rfl, rfl, rfl, rfl⟩

theorem SameView.symm (h : m.SameView n) : n.SameView m :=
  ⟨h.core.symm, h.keypad.symm, h.delay.symm, h.dialect.symm, h.remaining.symm⟩

theorem SameView.trans {k : Machine} (h : m.SameView n) (h' : n.SameView k) : m.SameView k :=
  ⟨h.core.trans h'.core, h.keypad.trans h'.keypad, h.delay.trans h'.delay,
    h.dialect.trans h'.dialect, h.remaining.trans h'.remaining⟩

/-- No instruction can tell the machines apart. -/
theorem SameView.sensesAlike (h : m.SameView n) (i : Instruction) : i.SensesAlike m n := by
  cases i with
  | skipPressed x | skipNotPressed x | awaitKey x => exact h.keypad
  | readDelay x => exact congrArg Timer.value h.delay
  | random x nn => exact congrFun h.remaining 0
  | arithmetic op x y => exact fun _ => .inr (congrArg Dialect.shift h.dialect)
  | storeRegisters x | fillRegisters x =>
    exact fun _ => congrArg (fun d : Dialect => d.advance.amount x) h.dialect
  | _ => trivial

/-! ## Cycles -/

/-- **A cycle of machines that look the same.** -/
theorem SameView.cycle (h : m.SameView n) : m.cycle.Matches SameView n.cycle := by
  have hcycle := core_cycle h.core fun i _ => h.sensesAlike i
  obtain ⟨hcore, hresult, hlog⟩ := Outcome.mk.inj hcycle
  have hv : m.v = n.v := congrArg Core.v h.core
  refine ⟨⟨hcore, ?keypad, ?delay, ?dialect, ?remaining⟩, hresult, hlog⟩
  case keypad => rw [keypad_cycle, keypad_cycle, h.keypad]
  case delay => exact device_cycle_congr (·.delay) h.core fun i => delay_devicesAfter i hv h.delay
  case dialect => rw [dialect_cycle, dialect_cycle, h.dialect]
  case remaining =>
    refine device_cycle_congr (·.random.remaining) h.core fun i => ?_
    unfold devicesAfter
    split <;> simp only [devices, RandomSource.remaining_draw, h.remaining]

/-! ## Events -/

/-- Whether an event only concerns the sound. -/
def Event.forSound : Event → Bool
  | .attach _ | .tickSound | .pollSpeaker _ => true
  | _ => false

/-- **Nothing that only concerns the sound can be seen.** -/
theorem SameView.of_forSound (h : m.SameView n) {e : Event} (he : e.forSound = true) :
    (m.handle e).state.SameView n := by
  cases e with
  | attach sound => exact { h with }
  | tickSound => exact { h with }
  | pollSpeaker age =>
    change (m.pollSpeaker age).state.SameView n
    rw [pollSpeaker]
    split
    · exact h
    · exact { h with }
  | load | reset | setKey | setKeys | tickDelay | cycle => cases he

theorem core_load (h : m.core = n.core) (rom : List UInt8) :
    (m.load rom).mapState core = (n.load rom).mapState core := by
  rw [eq_withDevices h]
  rfl

/-- Nothing of the core survives the power switch. -/
theorem core_reset (m : Machine) :
    m.reset.core = ⟨Memory.empty.loadFont, .zero, 0, startAddress, ⟨0⟩, .dark⟩ :=
  rfl

theorem SameView.reset (h : m.SameView n) : m.reset.SameView n.reset where
  core := m.core_reset.trans n.core_reset.symm
  keypad := by simp only [Machine.reset, h.keypad]
  delay := by simp only [Machine.reset, h.delay]
  dialect := by simp only [Machine.reset, h.dialect]
  remaining := by simp only [Machine.reset, h.remaining]

/-- **Any other event does the same to machines that look the same.** -/
theorem SameView.handle (h : m.SameView n) {e : Event} (he : e.forSound = false) :
    (m.handle e).Matches SameView (n.handle e) := by
  cases e with
  | load rom =>
    obtain ⟨hcore, hresult, hlog⟩ := Outcome.mk.inj (core_load h.core rom)
    have hload : (m.load rom).result = (n.load rom).result := hresult
    exact ⟨{ h with core := hcore }, congrArg (Except.map fun _ => none) hload, hlog⟩
  | reset => exact ⟨h.reset, rfl, rfl⟩
  | setKey code down =>
    have hkeypad : (m.keypad.set code down).state = (n.keypad.set code down).state := by
      rw [h.keypad]
    have hlog : (m.keypad.set code down).log = (n.keypad.set code down).log := by
      rw [h.keypad]
    exact ⟨{ h with keypad := hkeypad }, rfl, hlog⟩
  | setKeys keypad => exact ⟨{ h with keypad := rfl }, rfl, rfl⟩
  | tickDelay => exact ⟨{ h with delay := congrArg Timer.tick h.delay }, rfl, rfl⟩
  | cycle =>
    obtain ⟨hstate, hresult, hlog⟩ := h.cycle
    exact ⟨hstate, congrArg (Except.map some) hresult, hlog⟩
  | attach | tickSound | pollSpeaker => cases he

end Machine
end Chip8
