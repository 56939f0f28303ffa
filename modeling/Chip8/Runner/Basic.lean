import Chip8.Machine.Event
import Chip8.Runner.Control

/-!
# Runners

A runner drives a machine from a background worker.  Every tick that is granted a cycle takes the
keys from the host, runs the cycle and shows the screen if it may have changed.  A cycle that fails
halts the runner for good.

A tick has three sections, each of them under a lock of its own: the grant, the cycle, and the
report of a fault.

## What is here

* `Console` — the host's side: its keys, and what was shown.
* `Runner`, `Runner.start` — the whole.
* `Runner.grant`, `Runner.runCycle`, `Runner.report` — the sections of a tick.
* `Runner.tick`, `Runner.pause`, `Runner.resume`, `Runner.step`, `Runner.stop` — the calls.
-/

namespace Chip8

/-! ## The host's side -/

/-- The keys the host holds down, how often they were asked for, and the frames it was shown and
has not taken yet. -/
structure Console where
  keys : Keypad
  polls : Nat := 0
  frames : List Screen := []

/-- The host answers with its keys. -/
def Console.poll (c : Console) : Keypad × Console := (c.keys, { c with polls := c.polls + 1 })

/-- The host is shown a frame. -/
def Console.display (c : Console) (s : Screen) : Console := { c with frames := c.frames ++ [s] }

/-! ## Runners -/

/-- A machine, its control, the worker that drives it, and the host's side. -/
structure Runner where
  machine : Machine
  control : RunControl
  worker : Worker
  console : Console
  /-- How many workers the machine had when the runner was started. -/
  earlierWorkers : Nat

namespace Runner

/-- The microseconds between two ticks. -/
def interval : Nat := Machine.cycleMilliseconds * 1000

/-- Starts to drive a machine. -/
def start (machine : Machine) (keys : Keypad) : Outcome Runner Unit :=
  ⟨⟨machine, {}, Worker.idle.start interval, { keys }, machine.workers.length⟩, (),
    [.runnerStarted]⟩

/-! ## Ticks -/

/-- The first section of a tick: whether it may run a cycle. -/
def grant (r : Runner) : Bool × Runner :=
  let taken := r.control.takeCycle
  (taken.1, { r with control := taken.2 })

/-- The second section: takes the keys, runs a cycle and shows the screen; the result is the fault
of the cycle, if it failed. -/
def runCycle (r : Runner) : Outcome Runner (Option Fault) :=
  let polled := r.console.poll
  let ran := (r.machine.setKeys polled.1).cycle
  let machine := ran.state
  match ran.result with
  | .ok .redraw => ⟨{ r with machine, console := polled.2.display machine.screen }, none, ran.log⟩
  | .ok _ => ⟨{ r with machine, console := polled.2 }, none, ran.log⟩
  | .error f =>
    ⟨{ r with machine, console := polled.2 }, some f,
      ran.log ++ [.halted machine.pc machine.opcode f]⟩

/-- The third section: a fault halts the runner. -/
def report (r : Runner) (fault : Option Fault) : Runner :=
  match fault with
  | none => r
  | some f => { r with control := r.control.halt f }

/-- The worker calls back: the three sections without a break. -/
def tick (r : Runner) : Outcome Runner Unit :=
  if r.worker.alive then
    match r.grant with
    | (false, r) => ⟨r, (), []⟩
    | (true, r) =>
      let ran := r.runCycle
      ⟨ran.state.report ran.result, (), ran.log⟩
  else ⟨r, (), []⟩

/-! ## Calls -/

/-- No cycles until the runner is resumed. -/
def pause (r : Runner) : Runner := { r with control := r.control.pause }

/-- Cycles again. -/
def resume (r : Runner) : Runner := { r with control := r.control.resume }

/-- A single cycle with the next tick, if the runner is paused. -/
def step (r : Runner) : Runner := { r with control := r.control.step }

/-- Ends the ticks. -/
def stop (r : Runner) : Outcome Runner Unit :=
  ⟨{ r with worker := r.worker.stop }, (), [.runnerStopped]⟩

/-- The host holds other keys down from now on. -/
def holdKeys (r : Runner) (keys : Keypad) : Runner :=
  { r with console := { r.console with keys } }

/-- The host takes the frames it was shown. -/
def takeFrames (r : Runner) : List Screen × Runner :=
  (r.console.frames, { r with console := { r.console with frames := [] } })

/-- Something happens to the machine. -/
def handleMachine (r : Runner) (e : Machine.Event) : Outcome Runner Machine.Answer :=
  (r.machine.handle e).mapState fun machine => { r with machine }

/-- All workers in the order of their creation; the runner's own comes after those that the machine
had when the runner was started. -/
def workers (r : Runner) : List Worker :=
  r.machine.workers.take r.earlierWorkers ++ r.worker :: r.machine.workers.drop r.earlierWorkers

end Runner
end Chip8
