import Chip8.Proofs.Cycle.Failures

/-!
# The core of a machine and its devices

A machine falls into two parts.  The core is what a program computes with: memory and calls,
registers, counters and screen.  The devices are what stands around it: keys, timers, speakers, the
source of random bytes, and how the machine was set up.

An instruction reads and writes the core as it likes, but there is little traffic between the two
parts.  It can learn which keys are down, what the delay timer shows and what the next random byte
is, and the dialect decides what a shift reads and how far a transfer moves the index register.  And
it can set one of the timers or draw a random byte.  That is all, and it is what every comparison of
two machines that differ in a device rests on.

## What is here

* `Machine.core`, `Machine.devices`, `Machine.withDevices` — the two parts, and other devices around
  the same core.
* `Instruction.SensesAlike` — the devices of two machines tell an instruction the same.
* `Machine.core_execute`, `Machine.core_cycle` — if they do, the cores stay the same.
* `Machine.devicesAfter`, `Machine.devices_execute`, `Machine.devices_cycle` — what becomes of the
  devices.
-/

set_option autoImplicit false

namespace Chip8

/-! ## The two parts -/

/-- What a program computes with. -/
structure Machine.Core where
  memory : Memory
  v : Registers
  i : UInt16
  pc : UInt16
  opcode : Opcode
  screen : Screen

/-- What stands around the core. -/
structure Machine.Devices where
  keypad : Keypad
  delay : Timer
  sound : Timer
  speakers : List Speaker
  dialect : Dialect
  random : RandomSource
  cycleDelay : Option Nat

namespace Machine

/-- The core of a machine. -/
def core (m : Machine) : Core := ⟨m.memory, m.v, m.i, m.pc, m.opcode, m.screen⟩

/-- The devices of a machine. -/
def devices (m : Machine) : Devices :=
  ⟨m.keypad, m.delay, m.sound, m.speakers, m.dialect, m.random, m.cycleDelay⟩

/-- The same core among other devices. -/
def withDevices (m : Machine) (d : Devices) : Machine :=
  { m with
    keypad := d.keypad
    delay := d.delay
    sound := d.sound
    speakers := d.speakers
    dialect := d.dialect
    random := d.random
    cycleDelay := d.cycleDelay }

variable {m n : Machine}

/-- Machines with one core differ in their devices. -/
theorem eq_withDevices (h : m.core = n.core) : n = m.withDevices n.devices := by
  obtain ⟨hmemory, hv, hi, hpc, hopcode, hscreen⟩ := Core.mk.inj h
  simp only [withDevices, devices, hmemory, hv, hi, hpc, hopcode, hscreen]

/-- A machine is its core and its devices. -/
theorem ext_parts (hcore : m.core = n.core) (hdevices : m.devices = n.devices) : m = n := by
  rw [eq_withDevices hcore, ← hdevices]
  rfl

end Machine

/-! ## What an instruction learns from the devices -/

/-- The operations that a dialect has a say in. -/
def ArithmeticOp.IsShift (op : ArithmeticOp) : Prop := op = shiftRight ∨ op = shiftLeft

/-- Two registers that hold the same are shifted alike, whichever a shift reads. -/
theorem ArithmeticOp.compute_congr {op : ArithmeticOp} {s t : ShiftSource} {vx vy : UInt8}
    (h : op.IsShift → vx = vy ∨ s = t) : op.compute s vx vy = op.compute t vx vy := by
  have hpick : op.IsShift → s.pick vx vy = t.pick vx vy := by
    intro hop
    rcases h hop with rfl | rfl
    · cases s <;> cases t <;> rfl
    · rfl
  cases op with
  | shiftRight => simp only [compute, hpick (.inl rfl)]
  | shiftLeft => simp only [compute, hpick (.inr rfl)]
  | _ => rfl

/-- **The devices of two machines tell an instruction the same**, if the cores are the same. -/
def Instruction.SensesAlike (m n : Machine) : Instruction → Prop
  | .skipPressed _ | .skipNotPressed _ | .awaitKey _ => m.keypad = n.keypad
  | .readDelay _ => m.delay.value = n.delay.value
  | .random _ _ => m.random.draw.1 = n.random.draw.1
  | .arithmetic op x y =>
    op.IsShift → m.v.get x = m.v.get y ∨ m.dialect.shift = n.dialect.shift
  | .storeRegisters x | .fillRegisters x =>
    m.i.toNat + (x + 1) ≤ 4096 → m.dialect.advance.amount x = n.dialect.advance.amount x
  | _ => True

namespace Machine

variable {m n : Machine} {i : Instruction}

/-- A transfer between the same cores goes on the same, unless what comes after it succeeds and
differs. -/
theorem core_afterTransfer {transfer transfer' : Machine × Except Fault Unit}
    {after after' : Machine → Machine} (hcore : transfer.1.core = transfer'.1.core)
    (hresult : transfer.2 = transfer'.2)
    (h : transfer.2 = .ok () → (after transfer.1).core = (after' transfer'.1).core) :
    (afterTransfer transfer after).mapState core =
      (afterTransfer transfer' after').mapState core := by
  rw [afterTransfer, afterTransfer, ← hresult]
  cases ht : transfer.2 with
  | error f => simp only [Outcome.mapState, hcore]
  | ok => simp only [goOn, Outcome.mapState, h ht]

/-- What comes after a transfer that succeeds does not fail. -/
theorem afterTransfer_result_of_ok {transfer : Machine × Except Fault Unit}
    (after : Machine → Machine) (h : transfer.2 = .ok ()) :
    (afterTransfer transfer after).result = .ok (.next, .proceed) := by
  rw [afterTransfer, h]
  rfl

/-- The index register moves alike, if the dialects agree on how far. -/
theorem core_advanceIndex {d : Devices} {x : Nat}
    (h : m.dialect.advance.amount x = d.dialect.advance.amount x) :
    (m.advanceIndex x).core = ((m.withDevices d).advanceIndex x).core := by
  simp only [advanceIndex, withDevices, core, h]

/-- **An instruction does the same to the same cores**, if the devices tell it the same. -/
theorem core_execute (hi : i.Fits) (hcore : m.core = n.core) (h : i.SensesAlike m n) :
    (m.execute i).mapState core = (n.execute i).mapState core := by
  rw [eq_withDevices hcore] at h ⊢
  generalize n.devices = d at h ⊢
  cases i with
  | ret =>
    change m.leave.mapState core = (m.withDevices d).leave.mapState core
    rw [leave, leave, show (m.withDevices d).memory = m.memory from rfl]
    cases m.memory.pop <;> rfl
  | arithmetic op x y =>
    have hcompute := ArithmeticOp.compute_congr h
    change Outcome.mk (core { m with v := m.v.arithmetic m.dialect.shift op x y }) _ _ =
      Outcome.mk (core { m with v := m.v.arithmetic d.dialect.shift op x y }) _ _
    simp only [Registers.arithmetic, core]
    rw [hcompute]
    rfl
  | random x nn =>
    have hbyte : m.random.draw.1 = d.random.draw.1 := h
    simp only [execute, goOn, Outcome.mapState, core, withDevices, hbyte]
  | skipPressed x | skipNotPressed x =>
    have hkeys : m.keypad = d.keypad := h
    simp only [execute, goTo, Outcome.mapState, core, withDevices, hkeys]
  | readDelay x =>
    have hvalue : m.delay.value = d.delay.value := h
    simp only [execute, goOn, Outcome.mapState, core, withDevices, hvalue]
  | awaitKey x =>
    have hkeys : m.keypad = d.keypad := h
    change (m.takeKey x).mapState core = ((m.withDevices d).takeKey x).mapState core
    rw [takeKey, takeKey, show (m.withDevices d).keypad = m.keypad from hkeys.symm]
    cases m.keypad.lowest? <;> rfl
  | storeDecimal x => exact core_afterTransfer rfl rfl fun _ => rfl
  | storeRegisters x =>
    refine core_afterTransfer rfl rfl fun hok => core_advanceIndex (h ?_)
    have hspan := add_span_le_of_ok hi (afterTransfer_result_of_ok (advanceIndex · x) hok)
    exact hspan.resolve_left (Nat.succ_ne_zero x)
  | fillRegisters x =>
    refine core_afterTransfer rfl rfl fun hok => core_advanceIndex (h ?_)
    have hspan := add_span_le_of_ok hi (afterTransfer_result_of_ok (advanceIndex · x) hok)
    exact hspan.resolve_left (Nat.succ_ne_zero x)
  | _ => rfl

/-! ## What becomes of the devices -/

/-- The devices after an instruction, if there is one. -/
def devicesAfter (m : Machine) : Option Instruction → Devices
  | some (.setDelay x) => { m.devices with delay := m.delay.set (m.v.get x) }
  | some (.setSound x) => { m.devices with sound := m.sound.set (m.v.get x) }
  | some (.random _ _) => { m.devices with random := m.random.draw.2 }
  | _ => m.devices

theorem keypad_devicesAfter (m : Machine) (i : Option Instruction) :
    (m.devicesAfter i).keypad = m.keypad := by
  unfold devicesAfter
  split <;> rfl

theorem speakers_devicesAfter (m : Machine) (i : Option Instruction) :
    (m.devicesAfter i).speakers = m.speakers := by
  unfold devicesAfter
  split <;> rfl

theorem dialect_devicesAfter (m : Machine) (i : Option Instruction) :
    (m.devicesAfter i).dialect = m.dialect := by
  unfold devicesAfter
  split <;> rfl

/-- A timer is set from a register, so two delay timers stay the same among the same registers. -/
theorem delay_devicesAfter (i : Option Instruction) (hv : m.v = n.v) (h : m.delay = n.delay) :
    (m.devicesAfter i).delay = (n.devicesAfter i).delay := by
  unfold devicesAfter
  split <;> simp only [devices, hv, h]

theorem sound_devicesAfter (i : Option Instruction) (hv : m.v = n.v) (h : m.sound = n.sound) :
    (m.devicesAfter i).sound = (n.devicesAfter i).sound := by
  unfold devicesAfter
  split <;> simp only [devices, hv, h]

/-- **An instruction sets a timer or draws a random byte, and leaves the other devices alone.** -/
theorem devices_execute (m : Machine) (i : Instruction) :
    (m.execute i).state.devices = m.devicesAfter (some i) := by
  cases i with
  | ret => exact m.leave_state devices fun _ => rfl
  | awaitKey x => exact m.takeKey_state devices x fun _ => rfl
  | storeDecimal x => exact afterTransfer_state devices _ _ fun _ => rfl
  | storeRegisters x => exact afterTransfer_state devices _ _ fun _ => rfl
  | fillRegisters x => exact afterTransfer_state devices _ _ fun _ => rfl
  | _ => rfl

/-! ## Cycles -/

theorem fetch_congr (h : m.core = n.core) : m.fetch = n.fetch := by
  rw [eq_withDevices h]
  rfl

theorem core_fetched (h : m.core = n.core) (w : Opcode) :
    (m.fetched w).core = (n.fetched w).core := by
  rw [eq_withDevices h]
  rfl

theorem next?_congr (h : m.core = n.core) : m.next? = n.next? := by
  rw [eq_withDevices h]
  rfl

theorem core_conclude {o o' : Outcome Machine Verdict} (hcore : m.core = n.core)
    (ho : o.mapState core = o'.mapState core) :
    (m.conclude i o).mapState core = (n.conclude i o').mapState core := by
  obtain ⟨hstate, hresult, hlog⟩ := Outcome.mk.inj ho
  rw [eq_withDevices hcore, conclude, conclude, ← hresult, ← hlog]
  rcases o.result with f | ⟨step, s⟩
  · simp only [Outcome.mapState, hstate]
    rfl
  · rw [eq_withDevices hstate]
    rfl

/-- **A cycle does the same to the same cores**, if the devices tell its instruction the same. -/
theorem core_cycle (hcore : m.core = n.core)
    (h : ∀ i, m.next? = some i → i.SensesAlike m n) :
    m.cycle.mapState core = n.cycle.mapState core := by
  have hfetch := fetch_congr hcore
  refine cycle_cases (P := fun o => o.mapState core = n.cycle.mapState core) m
    (fun f hf => ?unfetched) (fun w hw hi => ?undecoded) (fun w i hw hi => ?performed)
  case unfetched =>
    rw [hfetch] at hf
    rw [cycle, hf]
    simp only [Outcome.mapState, hcore]
  case undecoded =>
    rw [hfetch] at hw
    rw [cycle, hw]
    simp only [Instruction.decode, hi, Outcome.mapState, core_fetched hcore w]
    rfl
  case performed =>
    have hfits := (Instruction.code_of_ofOpcode? hi).1
    have hsame := core_fetched hcore w
    have hsenses : i.SensesAlike (m.fetched w) (n.fetched w) := by
      have hi' := h i ((next?_of_fetch hw).trans hi)
      cases i <;> exact hi'
    rw [cycle_eq_perform (hfetch ▸ hw) hi]
    exact core_conclude hsame (core_execute hfits hsame hsenses)

/-- **What becomes of the devices in a cycle**, whether it succeeds or fails. -/
theorem devices_cycle (m : Machine) : m.cycle.state.devices = m.devicesAfter m.next? := by
  refine cycle_cases (P := fun o => o.state.devices = m.devicesAfter m.next?) m
    (fun f hf => ?unfetched) (fun w hw hi => ?undecoded) (fun w i hw hi => ?performed)
  case unfetched =>
    rw [next?, if_neg (not_lt_of_fetch hf)]
    rfl
  case undecoded =>
    rw [next?_of_fetch hw, hi]
    rfl
  case performed =>
    have hperform : ((m.fetched w).perform i).state.devices =
        ((m.fetched w).execute i).state.devices := perform_state devices _ i fun _ _ => rfl
    rw [hperform, devices_execute, next?_of_fetch hw, hi]
    cases i <;> rfl

theorem keypad_cycle (m : Machine) : m.cycle.state.keypad = m.keypad :=
  (congrArg Devices.keypad m.devices_cycle).trans (m.keypad_devicesAfter _)

theorem speakers_cycle (m : Machine) : m.cycle.state.speakers = m.speakers :=
  (congrArg Devices.speakers m.devices_cycle).trans (m.speakers_devicesAfter _)

theorem dialect_cycle (m : Machine) : m.cycle.state.dialect = m.dialect :=
  (congrArg Devices.dialect m.devices_cycle).trans (m.dialect_devicesAfter _)

/-- A part of the devices that every instruction leaves the same is left the same by a cycle. -/
theorem device_cycle_congr {α : Type} (part : Devices → α) (hcore : m.core = n.core)
    (h : ∀ i, part (m.devicesAfter i) = part (n.devicesAfter i)) :
    part m.cycle.state.devices = part n.cycle.state.devices := by
  rw [devices_cycle, devices_cycle, next?_congr hcore]
  exact h _

end Machine
end Chip8
