import Chip8.Runner.Basic

/-!
# Runs of a runner

Everything that can happen to a runner, as a list of calls.

## What is here

* `Runner.Call`, `Runner.handle` — one call with its answer.
* `Runner.run` — one call after the other.
* `Runner.elapse`, `Runner.await` — what all background workers do while time passes.
-/

namespace Chip8

/-- Something that happens to a runner. -/
inductive Runner.Call
  /-- The runner's worker calls back. -/
  | tick
  | pause
  | resume
  | step
  | stop
  /-- The host holds other keys down. -/
  | holdKeys (keys : Keypad)
  /-- The host takes the frames. -/
  | takeFrames
  /-- The host asks whether the runner is paused. -/
  | isPaused
  /-- The host asks for the fault that halted the runner. -/
  | fault
  /-- The host looks at the machine. -/
  | inspect
  /-- Something happens to the machine. -/
  | machine (event : Machine.Event)

/-- The answer to a call. -/
inductive Runner.Answer
  | done
  | frames (screens : List Screen)
  | isPaused (paused : Bool)
  | fault (cause : Option Fault)
  /-- All there is to see of the machine. -/
  | inspected (machine : Machine)
  | machine (answer : Machine.Answer)

namespace Runner

/-- What one call does. -/
def handle (r : Runner) : Call → Outcome Runner Answer
  | .tick => r.tick.mapResult fun _ => .done
  | .pause => ⟨r.pause, .done, []⟩
  | .resume => ⟨r.resume, .done, []⟩
  | .step => ⟨r.step, .done, []⟩
  | .stop => r.stop.mapResult fun _ => .done
  | .holdKeys keys => ⟨r.holdKeys keys, .done, []⟩
  | .takeFrames => ⟨r.takeFrames.2, .frames r.takeFrames.1, []⟩
  | .isPaused => ⟨r, .isPaused r.control.paused, []⟩
  | .fault => ⟨r, .fault r.control.fault, []⟩
  | .inspect => ⟨r, .inspected r.machine, []⟩
  | .machine event => (r.handleMachine event).mapResult .machine

/-- What a list of calls does: the answers in order. -/
def run (r : Runner) : List Call → Outcome Runner (List Answer)
  | [] => ⟨r, [], []⟩
  | c :: cs =>
    let first := r.handle c
    let rest := first.state.run cs
    ⟨rest.state, first.result :: rest.result, first.log ++ rest.log⟩

/-! ## Time -/

/-- What all background workers do between two instants: those of the machine first. -/
def elapse (r : Runner) (before now : Nat) : Outcome Runner Unit :=
  (r.run ((r.machine.firings before now).map .machine
    ++ List.replicate (r.worker.firings before now) .tick)).mapResult fun _ => ()

/-- Lets time pass until a condition holds, as long as the patience of the host lasts; the result
is whether it holds. -/
def await (r : Runner) (done : Runner → Bool) : Outcome Runner Bool :=
  let waited := waitUntil (Worker.shortestInterval r.workers)
    (fun before now o => o.andThen fun r => r.elapse before now)
    (fun o => done o.state) (⟨r, (), []⟩ : Outcome Runner Unit)
  waited.mapResult fun _ => done waited.state

end Runner
end Chip8
