import Chip8.Machine.Event
import Chip8.Proofs.Cycle.Devices

/-!
# Background events and cycles

Between two cycles, and at moments a program cannot foresee, timers tick, speakers poll and keys
move.  Each of these events has to do with one peripheral of the machine: the delay timer, the sound
timer with its speakers, or the keypad.  A program gets in touch with a peripheral through very few
instructions, which can be told by their words.  Any other cycle does not notice whether the event
comes before it or after it, and neither does the event.

The reason is the division of `Chip8.Proofs.Cycle.Devices`: a background event leaves the core alone,
so a cycle does the same to the core unless a device tells its instruction something else
(`sensesAlike_handle`); and what the cycle does to the devices is to set a timer or to draw a random
byte, which is out of the way of the event (`devicesAfter_handle`).

## What is here

* `Peripheral`, `Opcode.uses` — the peripherals, and the words that have to do with them.
* `Machine.Event.peripheral?` — the peripheral of a background event.
* `Machine.Entry` — what is seen of an event.
* `Machine.Commute` — two events that can change places.
* `Machine.commute_cycle` — background events and cycles.
* `Machine.commute_background` — background events of different peripherals.
-/

set_option autoImplicit false

namespace Chip8

/-! ## Peripherals -/

/-- What background events have to do with. -/
inductive Peripheral
  | delay
  /-- The sound timer and the speakers that poll it. -/
  | sound
  | keys
deriving DecidableEq

/-- Whether the instruction of a word has to do with a peripheral: `FX07` and `FX15` with the delay
timer, `FX18` with the sound timer, and `EX9E`, `EXA1` and `FX0A` with the keys. -/
def Opcode.uses (w : Opcode) : Peripheral → Bool
  | .delay => w.kind = 0xF ∧ (w.nn = 0x07 ∨ w.nn = 0x15)
  | .sound => w.kind = 0xF ∧ w.nn = 0x18
  | .keys => w.kind = 0xE ∧ (w.nn = 0x9E ∨ w.nn = 0xA1) ∨ w.kind = 0xF ∧ w.nn = 0x0A

namespace Instruction

/-- Whether an instruction has to do with a peripheral. -/
def uses : Instruction → Peripheral → Bool
  | readDelay _, .delay | setDelay _, .delay => true
  | setSound _, .sound => true
  | skipPressed _, .keys | skipNotPressed _, .keys | awaitKey _, .keys => true
  | _, _ => false

theorem uses_ofSystem (w : Opcode) (p : Peripheral) : (ofSystem w).uses p = false := by
  rw [ofSystem]
  split <;> rfl

theorem uses_of_ofKeyByte? {x nn : Nat} {i : Instruction} (h : ofKeyByte? x nn = some i)
    (p : Peripheral) : i.uses p = decide (p = .keys ∧ (nn = 0x9E ∨ nn = 0xA1)) := by
  unfold ofKeyByte? at h
  split at h <;> cases h <;> cases p <;> rfl

theorem uses_of_ofDeviceByte? {x nn : Nat} {i : Instruction} (h : ofDeviceByte? x nn = some i)
    (p : Peripheral) :
    i.uses p = decide (p = .delay ∧ (nn = 0x07 ∨ nn = 0x15) ∨ p = .sound ∧ nn = 0x18 ∨
      p = .keys ∧ nn = 0x0A) := by
  unfold ofDeviceByte? at h
  split at h <;> cases h <;> cases p <;> rfl

/-- What a decoded instruction has to do with can be read off its word. -/
theorem uses_of_ofOpcode? {w : Opcode} {i : Instruction} (h : ofOpcode? w = some i)
    (p : Peripheral) : i.uses p = w.uses p := by
  rw [ofOpcode?] at h
  split at h <;> rename_i hk
  case h_1 =>
    cases h
    rw [uses_ofSystem]
    cases p <;> simp [Opcode.uses, hk]
  case h_9 =>
    obtain ⟨op, -, rfl⟩ := Option.map_eq_some_iff.1 h
    cases p <;> simp [Opcode.uses, hk, uses]
  case h_15 =>
    rw [uses_of_ofKeyByte? h]
    cases p <;> simp [Opcode.uses, hk]
  case h_16 =>
    rw [uses_of_ofDeviceByte? h]
    cases p <;> simp [Opcode.uses, hk]
  case h_17 => cases h
  case h_6 | h_10 => split at h <;> cases h; cases p <;> simp [Opcode.uses, hk, uses]
  all_goals cases h; cases p <;> simp [Opcode.uses, hk, uses]

end Instruction

namespace Machine

/-- The peripheral of a background event; other events have none. -/
def Event.peripheral? : Event → Option Peripheral
  | .tickDelay => some .delay
  | .tickSound | .pollSpeaker _ => some .sound
  | .setKey _ _ | .setKeys _ => some .keys
  | .load _ | .reset | .attach _ | .cycle => none

/-! ## Two events that can change places -/

/-- What is seen of an event: the word it fetched if it was a cycle and found one, its answer, and
the records it made. -/
structure Entry where
  event : Event
  word : Option Opcode
  answer : Answer
  log : List Record

/-- What is seen of an event on a machine. -/
def entry (m : Machine) (e : Event) : Entry where
  event := e
  word :=
    match e with
    | .cycle => m.fetch.toOption
    | _ => none
  answer := (m.handle e).result
  log := (m.handle e).log

/-- **Two events can change places**: what is seen of either is the same, and so is the machine that
they leave. -/
structure Commute (m : Machine) (e f : Event) : Prop where
  state : ((m.handle e).state.handle f).state = ((m.handle f).state.handle e).state
  left : (m.handle f).state.entry e = m.entry e
  right : (m.handle e).state.entry f = m.entry f

variable {m n : Machine} {e f : Event} {p q : Peripheral}

theorem Commute.symm (h : m.Commute e f) : m.Commute f e := ⟨h.state.symm, h.right, h.left⟩

/-! ## What a background event leaves alone -/

/-- The speakers and the sound timer after a speaker's worker called back. -/
def polled (speakers : List Speaker) (sound : Timer) (age : Nat) :
    Outcome (List Speaker × Timer) Unit :=
  match speakers[age]? with
  | none => ⟨(speakers, sound), (), []⟩
  | some s =>
    let o := s.poll sound.value
    ⟨(speakers.set age o.state, sound.set o.result), (), o.log⟩

/-- A poll is between the speakers and the sound timer. -/
theorem pollSpeaker_eq (m : Machine) (age : Nat) :
    m.pollSpeaker age =
      (polled m.speakers m.sound age).mapState fun s =>
        { m with speakers := s.1, sound := s.2 } := by
  rw [pollSpeaker, polled]
  cases m.speakers[age]? <;> rfl

theorem core_handle (he : e.peripheral? = some p) : (m.handle e).state.core = m.core := by
  cases e with
  | pollSpeaker age => exact m.pollSpeaker_state core age fun _ _ => rfl
  | tickDelay | tickSound | setKey | setKeys => rfl
  | load | reset | attach | cycle => cases he

/-- The source of random bytes and the dialect are no peripherals. -/
theorem random_handle (he : e.peripheral? = some p) :
    (m.handle e).state.random = m.random ∧ (m.handle e).state.dialect = m.dialect := by
  cases e with
  | pollSpeaker age =>
    exact ⟨m.pollSpeaker_state (·.random) age fun _ _ => rfl,
      m.pollSpeaker_state (·.dialect) age fun _ _ => rfl⟩
  | tickDelay | tickSound | setKey | setKeys => exact ⟨rfl, rfl⟩
  | load | reset | attach | cycle => cases he

theorem keypad_handle (he : e.peripheral? = some p) (hp : p ≠ .keys) :
    (m.handle e).state.keypad = m.keypad := by
  cases e with
  | pollSpeaker age => exact m.pollSpeaker_state (·.keypad) age fun _ _ => rfl
  | tickDelay | tickSound => rfl
  | setKey | setKeys => exact absurd (Option.some.inj he).symm hp
  | load | reset | attach | cycle => cases he

theorem delay_handle (he : e.peripheral? = some p) (hp : p ≠ .delay) :
    (m.handle e).state.delay = m.delay := by
  cases e with
  | pollSpeaker age => exact m.pollSpeaker_state (·.delay) age fun _ _ => rfl
  | tickSound | setKey | setKeys => rfl
  | tickDelay => exact absurd (Option.some.inj he).symm hp
  | load | reset | attach | cycle => cases he

/-- What a background event does, it does to the devices, and it looks at nothing else. -/
theorem handle_congr (he : e.peripheral? = some p) (h : m.devices = n.devices) :
    (m.handle e).mapState devices = (n.handle e).mapState devices := by
  obtain ⟨hkeypad, hdelay, hsound, hspeakers, hdialect, hrandom, hwait⟩ := Devices.mk.inj h
  cases e with
  | tickDelay | tickSound | pollSpeaker | setKey | setKeys =>
    simp only [handle, tickDelay, tickSound, pollSpeaker_eq, setKey, setKeys, Outcome.mapState,
      Outcome.mapResult, devices, *]
  | load | reset | attach | cycle => cases he

/-! ## Background events and cycles -/

/-- Instructions that have nothing to do with a peripheral are told the same after an event there. -/
theorem sensesAlike_handle (he : e.peripheral? = some p) {i : Instruction}
    (hi : i.uses p = false) : i.SensesAlike m (m.handle e).state := by
  obtain ⟨hrandom, hdialect⟩ := random_handle (m := m) he
  cases i with
  | skipPressed x | skipNotPressed x | awaitKey x =>
    have hp : p ≠ .keys := by rintro rfl; cases hi
    exact (keypad_handle he hp).symm
  | readDelay x =>
    have hp : p ≠ .delay := by rintro rfl; cases hi
    exact congrArg Timer.value (delay_handle he hp).symm
  | random x nn => exact congrArg (fun r : RandomSource => r.draw.1) hrandom.symm
  | arithmetic op x y => exact fun _ => .inr (congrArg Dialect.shift hdialect.symm)
  | storeRegisters x | fillRegisters x =>
    exact fun _ => congrArg (fun d : Dialect => d.advance.amount x) hdialect.symm
  | _ => trivial

/-- What an instruction does to the devices is out of the way of events of a peripheral it has
nothing to do with. -/
theorem devicesAfter_handle (he : e.peripheral? = some p) {i : Option Instruction}
    (hi : ∀ j ∈ i, j.uses p = false) :
    ((m.withDevices (m.devicesAfter i)).handle e).mapState devices =
      (m.handle e).mapState (·.devicesAfter i) := by
  unfold devicesAfter
  split
  case h_1 x =>
    have hp : p ≠ .delay := by rintro rfl; cases hi _ rfl
    cases e with
    | pollSpeaker age => simp only [handle, pollSpeaker_eq]; rfl
    | tickDelay => exact absurd (Option.some.inj he).symm hp
    | tickSound | setKey | setKeys => rfl
    | load | reset | attach | cycle => cases he
  case h_2 x =>
    have hp : p ≠ .sound := by rintro rfl; cases hi _ rfl
    cases e with
    | tickSound | pollSpeaker => exact absurd (Option.some.inj he).symm hp
    | tickDelay | setKey | setKeys => rfl
    | load | reset | attach | cycle => cases he
  all_goals
    cases e with
    | pollSpeaker age => simp only [handle, pollSpeaker_eq]; rfl
    | tickDelay | tickSound | setKey | setKeys => rfl
    | load | reset | attach | cycle => cases he

theorem entry_of_peripheral (m : Machine) (he : e.peripheral? = some p) :
    m.entry e = ⟨e, none, (m.handle e).result, (m.handle e).log⟩ := by
  cases e with
  | cycle => cases he
  | _ => rfl

/-- **A background event and a cycle can change places**, whether the cycle succeeds or fails, unless
the word that the cycle fetches has to do with the peripheral of the event. -/
theorem commute_cycle (he : e.peripheral? = some p) (hw : ∀ w, m.fetch = .ok w → w.uses p = false) :
    m.Commute e .cycle := by
  have hnext : ∀ i ∈ m.next?, i.uses p = false := by
    intro i hi
    rw [next?] at hi
    split at hi
    next hpc =>
      rw [Instruction.uses_of_ofOpcode? hi]
      exact hw _ (fetch_eq_ok_iff.2 ⟨by omega, rfl⟩)
    next => cases hi
  have hcore : m.core = (m.handle e).state.core := (core_handle he).symm
  -- the cycle does not notice that the event has come first
  have hcycle := core_cycle hcore fun i hi => sensesAlike_handle he (hnext i hi)
  obtain ⟨hstate, hresult, hlog⟩ := Outcome.mk.inj hcycle
  -- and the event does not notice that the cycle has come first
  have hevent : (m.cycle.state.handle e).mapState devices =
      (m.handle e).mapState (·.devicesAfter m.next?) :=
    (handle_congr he m.devices_cycle).trans (devicesAfter_handle he hnext)
  obtain ⟨hdevices, hanswer, hrecords⟩ := Outcome.mk.inj hevent
  refine ⟨?state, ?left, ?right⟩
  case state =>
    refine ext_parts ?core ?devices
    case core => exact hstate.symm.trans (core_handle he).symm
    case devices =>
      refine (devices_cycle _).trans ?_
      rw [← next?_congr hcore]
      exact hdevices.symm
  case left =>
    change m.cycle.state.entry e = m.entry e
    rw [entry_of_peripheral _ he, entry_of_peripheral _ he, hanswer, hrecords]
  case right =>
    have hanswers : ((m.handle e).state.handle .cycle).result = (m.handle .cycle).result :=
      congrArg (Except.map some) hresult.symm
    have hlogs : ((m.handle e).state.handle .cycle).log = (m.handle .cycle).log := hlog.symm
    simp only [entry, ← fetch_congr hcore, hanswers, hlogs]

/-- **Background events of different peripherals can change places.** -/
theorem commute_background (he : e.peripheral? = some p) (hf : f.peripheral? = some q)
    (hpq : p ≠ q) : m.Commute e f := by
  cases e <;> cases he <;> cases f <;> cases hf <;> try contradiction
  -- what is left are events of two peripherals, which are separate parts of the machine
  all_goals constructor <;> simp only [entry, handle, pollSpeaker_eq] <;> rfl

end Machine
end Chip8
