import Chip8.Memory

/-!
# Runs of a memory

Everything that can be done to a memory, as a list of events.

## What is here

* `Memory.Event`, `Memory.act` — one event.
* `Memory.run` — one event after the other.
-/

namespace Chip8

/-- Something that is done to a memory. -/
inductive Memory.Event
  /-- A byte is stored. -/
  | write (address : Nat) (value : UInt8)
  /-- A program is copied to an address. -/
  | load (rom : List UInt8) (offset : Nat)
  /-- The font is copied to its place. -/
  | loadFont
  /-- Bytes and calls are dropped. -/
  | clear
  /-- A call is entered. -/
  | push (address : UInt16)
  /-- The innermost call is left. -/
  | pop

namespace Memory

/-- The answer to an event: the return address that was taken, nothing, or a fault. -/
abbrev Answer := Except Fault (Option UInt16)

/-- What one event does.  A memory stays as it is if a byte cannot be stored or there is no call to
leave. -/
def act (m : Memory) : Event → Outcome Memory Answer
  | .write address value =>
    match m.write address value with
    | .error f => ⟨m, .error f, []⟩
    | .ok m' => ⟨m', .ok none, []⟩
  | .load rom offset => (m.load rom offset).mapResult fun r => r.map fun _ => none
  | .loadFont => ⟨m.loadFont, .ok none, []⟩
  | .clear => ⟨m.clear, .ok none, []⟩
  | .push address => ⟨m.push address, .ok none, []⟩
  | .pop =>
    match m.pop with
    | .error f => ⟨m, .error f, []⟩
    | .ok (address, m') => ⟨m', .ok (some address), []⟩

/-- The memory after a list of events. -/
def run (m : Memory) (es : List Event) : Memory := es.foldl (fun m e => (m.act e).state) m

end Memory
end Chip8
