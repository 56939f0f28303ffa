import Chip8.Machine.Cycle

/-!
# Runs of a machine

Everything that can happen to a machine, as a list of events.

## What is here

* `Machine.Event`, `Machine.handle` — one event.
* `Machine.run` — one event after the other.
* `Machine.elapse`, `Machine.await` — what the background workers do while time passes.
-/

namespace Chip8

/-- Something that happens to a machine. -/
inductive Machine.Event
  /-- A program is loaded. -/
  | load (rom : List UInt8)
  /-- The power is switched off and on. -/
  | reset
  /-- A key goes down or up. -/
  | setKey (code : UInt8) (down : Bool)
  /-- All keys are set. -/
  | setKeys (keypad : Keypad)
  /-- A sound output is attached. -/
  | attach (sound : Sound)
  /-- The delay timer's worker calls back. -/
  | tickDelay
  /-- The sound timer's worker calls back. -/
  | tickSound
  /-- A speaker's worker calls back. -/
  | pollSpeaker (age : Nat)
  /-- A cycle runs. -/
  | cycle

namespace Machine

/-- The answer to an event: the signal of a cycle, nothing, or a fault. -/
abbrev Answer := Except Fault (Option Signal)

/-- What one event does. -/
def handle (m : Machine) : Event → Outcome Machine Answer
  | .load rom => (m.load rom).mapResult fun r => r.map fun _ => none
  | .reset => ⟨m.reset, .ok none, []⟩
  | .setKey code down => (m.setKey code down).mapResult fun _ => .ok none
  | .setKeys keypad => ⟨m.setKeys keypad, .ok none, []⟩
  | .attach sound => ⟨m.attach sound, .ok none, []⟩
  | .tickDelay => ⟨m.tickDelay, .ok none, []⟩
  | .tickSound => ⟨m.tickSound, .ok none, []⟩
  | .pollSpeaker age => (m.pollSpeaker age).mapResult fun _ => .ok none
  | .cycle => m.cycle.mapResult fun r => r.map some

/-- What a list of events does: the answers in order. -/
def run (m : Machine) : List Event → Outcome Machine (List Answer)
  | [] => ⟨m, [], []⟩
  | e :: es =>
    let first := m.handle e
    let rest := first.state.run es
    ⟨rest.state, first.result :: rest.result, first.log ++ rest.log⟩

/-! ## Time -/

/-- The callbacks between two instants: the speaker first, then the timers. -/
def firings (m : Machine) (before now : Nat) : List Event :=
  let speaker :=
    match m.speakers with
    | [] => 0
    | s :: _ => s.worker.firings before now
  List.replicate speaker (.pollSpeaker 0)
    ++ List.replicate (m.delay.worker.firings before now) .tickDelay
    ++ List.replicate (m.sound.worker.firings before now) .tickSound

/-- What the background workers do between two instants. -/
def elapse (m : Machine) (before now : Nat) : Outcome Machine Unit :=
  (m.run (m.firings before now)).mapResult fun _ => ()

/-- Lets time pass until a condition holds, as long as the patience of the host lasts; the result
is whether it holds. -/
def await (m : Machine) (done : Machine → Bool) : Outcome Machine Bool :=
  let waited := waitUntil (Worker.shortestInterval m.workers)
    (fun before now o => o.andThen fun m => m.elapse before now)
    (fun o => done o.state) (⟨m, (), []⟩ : Outcome Machine Unit)
  waited.mapResult fun _ => done waited.state

end Machine
end Chip8
