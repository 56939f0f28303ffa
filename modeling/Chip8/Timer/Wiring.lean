import Chip8.Timer.Basic
import Chip8.Timer.Speaker

/-!
# The wiring of a machine

A timer is a worker and a value that is shared between the timer and whoever was given a handle on
it; a speaker is a worker that was given a handle on the value of the sound timer.  Here workers and
values go by number, in the order of their creation, and what a worker calls back is part of the
state: it is fixed when the worker is started, and nothing changes it but another start.

## What is here

* `Wiring` — the values and the workers of a machine, and what it holds of them.
* `Wiring.startClock`, `Wiring.powerOn`, `Wiring.attach` — what the machine does with its workers.
* `Wiring.callBack` — what a worker does.
-/

namespace Chip8

/-- What a worker calls back. -/
inductive Wiring.Callback
  /-- Nothing: the worker was never started. -/
  | nothing
  /-- It counts a value down. -/
  | count (value : Nat)
  /-- It polls a value for a sound output. -/
  | poll (value : Nat) (sound : Sound)
deriving DecidableEq

/-- A worker, its callback, and how often that has beeped. -/
structure Wiring.Post where
  worker : Worker
  callback : Wiring.Callback
  beeps : Nat
deriving DecidableEq

/-- A timer: how fast it counts, and the numbers of its worker and of its value. -/
structure Wiring.Clock where
  interval : Nat
  worker : Nat
  value : Nat
deriving DecidableEq

/-- The values and the workers of a machine. -/
structure Wiring where
  /-- All values, in the order of their creation. -/
  values : List UInt8
  /-- All workers, in the order of their creation. -/
  posts : List Wiring.Post
  /-- The timer that programs read. -/
  delay : Wiring.Clock
  /-- The timer that speakers poll. -/
  sound : Wiring.Clock
  /-- The worker of the attached speaker. -/
  speaker : Option Nat
deriving DecidableEq

namespace Wiring

/-! ## Values and workers -/

/-- A value. -/
def read (g : Wiring) (c : Nat) : UInt8 := g.values[c]?.getD 0

/-- Sets a value. -/
def write (g : Wiring) (c : Nat) (value : UInt8) : Wiring :=
  { g with values := g.values.set c value }

/-- A worker. -/
def worker (g : Wiring) (k : Nat) : Worker :=
  match g.posts[k]? with
  | none => .idle
  | some p => p.worker

/-- Creates a worker. -/
def hire (g : Wiring) : Wiring := { g with posts := g.posts ++ [⟨.idle, .nothing, 0⟩] }

/-- Starts a worker. -/
def start (g : Wiring) (k : Nat) (callback : Callback) (interval : Nat) : Wiring :=
  { g with posts := g.posts.modify k fun p => ⟨p.worker.start interval, callback, p.beeps⟩ }

/-- Stops a worker. -/
def stop (g : Wiring) (k : Nat) : Wiring :=
  { g with posts := g.posts.modify k fun p => { p with worker := p.worker.stop } }

/-! ## What the machine does -/

/-- Both timers have just been created: a worker and a value of its own for each. -/
def new : Wiring where
  values := [0, 0]
  posts := [⟨.idle, .nothing, 0⟩, ⟨.idle, .nothing, 0⟩]
  delay := ⟨Timer.standardInterval, 0, 0⟩
  sound := ⟨Timer.standardInterval, 1, 1⟩
  speaker := none

/-- Starts the countdown of a timer; one that already runs goes on undisturbed. -/
def startClock (g : Wiring) (c : Clock) : Wiring :=
  if (g.worker c.worker).alive then g else g.start c.worker (.count c.value) c.interval

/-- Power on: both timers are zero and run. -/
def powerOn (g : Wiring) : Wiring :=
  let zeroed := (g.write g.delay.value 0).write g.sound.value 0
  (zeroed.startClock g.delay).startClock g.sound

/-- Attaches a sound output: a new worker is created and polls the sound timer, and that of the
speaker it replaces is stopped. -/
def attach (g : Wiring) (sound : Sound) : Wiring :=
  let k := g.posts.length
  let started := g.hire.start k (.poll g.sound.value sound) Timer.standardInterval
  let handedOver :=
    match g.speaker with
    | none => started
    | some former => started.stop former
  { handedOver with speaker := some k }

/-! ## What a worker does -/

/-- **Worker `k` calls back**, unless it was stopped or never started. -/
def callBack (g : Wiring) (k : Nat) : Outcome Wiring Unit :=
  match g.posts[k]? with
  | none => ⟨g, (), []⟩
  | some p =>
    if p.worker.alive then
      match p.callback with
      | .nothing => ⟨g, (), []⟩
      | .count c => ⟨g.write c (countDown (g.read c)), (), []⟩
      | .poll c sound =>
        let polled := Speaker.poll ⟨p.worker, sound, p.beeps⟩ (g.read c)
        let posts := g.posts.set k { p with beeps := polled.state.beeps }
        ⟨{ g with posts }.write c polled.result, (), polled.log⟩
    else ⟨g, (), []⟩

end Wiring
end Chip8
