import Chip8.Runner.Call

/-!
# Ticks section by section

Each section of a tick is under a lock, but the tick as a whole is not.  A host that calls from
another thread can get in between two sections.  Here the worker goes on by one section whenever it
is its turn, and the host can call at any time.

## What is here

* `Runner.Stage`, `Runner.Split` — how far a tick has come, and a runner with it.
* `Runner.Turn`, `Split.turn` — a call of the host, or the next section.
* `Split.run` — one turn after the other.
* `Split.finish` — the sections that are left.
-/

namespace Chip8

/-- How far a tick has come. -/
inductive Runner.Stage
  /-- There is no tick under way. -/
  | idle
  /-- A cycle was granted and has not run yet. -/
  | granted
  /-- The cycle has run and failed, and the fault was not reported yet. -/
  | failed (fault : Fault)
deriving DecidableEq

/-- A runner with the tick that its worker is in. -/
structure Runner.Split where
  runner : Runner
  stage : Runner.Stage

/-- Whose turn it is. -/
inductive Runner.Turn
  /-- The host makes a call. -/
  | host (call : Runner.Call)
  /-- The worker goes through the next section. -/
  | worker

namespace Runner.Split

/-- What one turn does; the result is the call of the host, if there is one, with its answer. -/
def turn (s : Split) : Turn → Outcome Split (List (Call × Answer))
  | .host c =>
    let called := s.runner.handle c
    ⟨{ s with runner := called.state }, [(c, called.result)], called.log⟩
  | .worker =>
    match s.stage with
    | .idle =>
      if s.runner.worker.alive then
        let taken := s.runner.grant
        ⟨⟨taken.2, if taken.1 then .granted else .idle⟩, [], []⟩
      else ⟨s, [], []⟩
    | .granted =>
      let ran := s.runner.runCycle
      ⟨⟨ran.state, ran.result.elim .idle .failed⟩, [], ran.log⟩
    | .failed f => ⟨⟨s.runner.report (some f), .idle⟩, [], []⟩

/-- What a list of turns does. -/
def run (s : Split) : List Turn → Outcome Split (List (Call × Answer))
  | [] => ⟨s, [], []⟩
  | t :: ts =>
    let first := s.turn t
    let rest := first.state.run ts
    ⟨rest.state, first.result ++ rest.result, first.log ++ rest.log⟩

/-- The tick that is under way goes through the sections that are left. -/
def finish (s : Split) : Outcome Runner Unit :=
  match s.stage with
  | .idle => ⟨s.runner, (), []⟩
  | .granted =>
    let ran := s.runner.runCycle
    ⟨ran.state.report ran.result, (), ran.log⟩
  | .failed f => ⟨s.runner.report (some f), (), []⟩

end Runner.Split
end Chip8
