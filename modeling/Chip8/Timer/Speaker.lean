import Chip8.Outcome
import Chip8.Worker.Basic

/-!
# Speakers

A speaker polls a timer at regular intervals: a value other than zero makes one beep, and the timer
is cleared with the same step.

## What is here

* `Sound` — where beeps go.
* `Speaker.start`, `Speaker.stop`, `Speaker.poll` — a speaker with its worker.
* `Speaker.heard` — the beeps that reached the host.
-/

namespace Chip8

/-- Where beeps go. -/
inductive Sound
  /-- The host beeps. -/
  | host
  /-- There is nothing to beep with; a beep only leaves a record. -/
  | silent
deriving DecidableEq

/-- The worker that polls a timer, where its beeps go, and how many there were. -/
structure Speaker where
  worker : Worker
  sound : Sound
  beeps : Nat
deriving DecidableEq

namespace Speaker

/-- A speaker that starts polling. -/
def start (sound : Sound) (interval : Nat) : Speaker := ⟨Worker.idle.start interval, sound, 0⟩

/-- Ends the polling. -/
def stop (s : Speaker) : Speaker := { s with worker := s.worker.stop }

/-- One beep. -/
def beep (s : Speaker) : Outcome Speaker Unit :=
  ⟨{ s with beeps := s.beeps + 1 }, (),
    match s.sound with
    | .host => []
    | .silent => [.beep]⟩

/-- The worker calls back with the value of the timer; the result is the value it leaves there. -/
def poll (s : Speaker) (value : UInt8) : Outcome Speaker UInt8 :=
  if s.worker.alive then
    if value = 0 then ⟨s, 0, []⟩ else s.beep.mapResult fun _ => 0
  else ⟨s, value, []⟩

/-- The number of beeps the host heard. -/
def heard (s : Speaker) : Nat :=
  match s.sound with
  | .host => s.beeps
  | .silent => 0

end Speaker
end Chip8
