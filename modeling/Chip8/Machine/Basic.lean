import Chip8.Dialect
import Chip8.Keypad
import Chip8.Memory
import Chip8.Random
import Chip8.Registers
import Chip8.Sprite
import Chip8.Step
import Chip8.Timer.Basic
import Chip8.Timer.Speaker

/-!
# The machine

The state of a machine and what a host can do to it from outside.

## What is here

* `Machine` — the state.
* `Machine.reset`, `Machine.new` — the state after power on.
* `Machine.load`, `Machine.setKey`, `Machine.attach` — programs, keys and sound.
* `Machine.tickDelay`, `Machine.tickSound`, `Machine.pollSpeaker` — the background workers.
* `Machine.workers` — all workers that the machine ever had.
-/

namespace Chip8

/-- The state of a machine. -/
structure Machine where
  /-- The bytes and the call stack. -/
  memory : Memory
  /-- The data registers. -/
  v : Registers
  /-- The index register. -/
  i : UInt16
  /-- The address of the next instruction. -/
  pc : UInt16
  /-- The word that was fetched last. -/
  opcode : Opcode
  screen : Screen
  keypad : Keypad
  /-- The timer that programs read. -/
  delay : Timer
  /-- The timer that speakers poll. -/
  sound : Timer
  /-- The attached speaker, then those it replaced, the latest first. -/
  speakers : List Speaker
  dialect : Dialect
  random : RandomSource
  /-- How many microseconds a host that runs cycles in a tight loop waits after each. -/
  cycleDelay : Option Nat

namespace Machine

/-- The address of the first instruction. -/
def startAddress : UInt16 := UInt16.ofNat Memory.programStart

/-- How many cycles a machine is meant to run in a second. -/
def rate : Nat := 500

/-- The milliseconds of a cycle at that rate. -/
def cycleMilliseconds : Nat := 1000 / rate

/-! ## Power on -/

/-- **Power on**: memory holds the font and nothing else, all registers and both timers are zero and
the timers run.  Keypad, dialect, random bytes and speakers stay as they are. -/
def reset (m : Machine) : Machine :=
  { m with
    memory := m.memory.clear.loadFont
    v := .zero
    i := 0
    pc := startAddress
    opcode := ⟨0⟩
    screen := .dark
    delay := (m.delay.set 0).start
    sound := (m.sound.set 0).start }

/-- A machine after its first power on. -/
def new (dialect : Dialect) (random : RandomSource) (cycleDelay : Option Nat) : Machine :=
  reset
    { memory := .empty
      v := .zero
      i := 0
      pc := startAddress
      opcode := ⟨0⟩
      screen := .dark
      keypad := .released
      delay := .new Timer.standardInterval
      sound := .new Timer.standardInterval
      speakers := []
      dialect
      random
      cycleDelay }

instance : Inhabited Machine := ⟨new default default none⟩

/-! ## Programs -/

/-- Copies a program to its place. -/
def load (m : Machine) (rom : List UInt8) : Outcome Machine (Except Fault Unit) :=
  (m.memory.load rom Memory.programStart).mapState fun memory => { m with memory }

/-! ## Keys -/

/-- Moves a key down or up. -/
def setKey (m : Machine) (code : UInt8) (down : Bool) : Outcome Machine Unit :=
  (m.keypad.set code down).mapState fun keypad => { m with keypad }

/-- Puts every key into the position it has on another keypad. -/
def setKeys (m : Machine) (keypad : Keypad) : Machine := { m with keypad }

/-! ## Background workers -/

/-- The worker of the delay timer calls back. -/
def tickDelay (m : Machine) : Machine := { m with delay := m.delay.tick }

/-- The worker of the sound timer calls back. -/
def tickSound (m : Machine) : Machine := { m with sound := m.sound.tick }

/-- Attaches a sound output: a new speaker starts, and the one it replaces is stopped. -/
def attach (m : Machine) (sound : Sound) : Machine :=
  let speaker := Speaker.start sound Timer.standardInterval
  { m with
    speakers :=
      match m.speakers with
      | [] => [speaker]
      | former :: older => speaker :: former.stop :: older }

/-- The worker of a speaker calls back; age `0` is the attached one, age `1` the one it replaced,
and so on. -/
def pollSpeaker (m : Machine) (age : Nat) : Outcome Machine Unit :=
  match m.speakers[age]? with
  | none => ⟨m, (), []⟩
  | some speaker =>
    let polled := speaker.poll m.sound.value
    ⟨{ m with
        speakers := m.speakers.set age polled.state
        sound := m.sound.set polled.result }, (), polled.log⟩

/-- The number of beeps the host heard. -/
def beeps (m : Machine) : Nat := m.speakers.foldr (fun s n => s.heard + n) 0

/-- The workers of the machine in the order of their creation: the delay timer, the sound timer,
the speakers. -/
def workers (m : Machine) : List Worker :=
  m.delay.worker :: m.sound.worker :: m.speakers.reverse.map Speaker.worker

end Machine
end Chip8
