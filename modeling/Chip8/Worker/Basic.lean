/-!
# Background workers

A worker calls something back at regular intervals, from its start until it is stopped.  What it
calls is up to its owner; here stand its life and its pace.

## What is here

* `Worker.start`, `Worker.stop` — the two ends of a worker's life.
* `Worker.ensureRunning` — starts a worker unless it already runs.
* `Worker.firings` — how often it calls back within a stretch of time.
* `waitUntil` — lets time pass until a condition holds.
-/

namespace Chip8

/-- A worker: whether it runs, its interval in microseconds (zero before its first start), and how
often it was started. -/
structure Worker where
  alive : Bool
  interval : Nat
  starts : Nat
deriving DecidableEq, Inhabited

/-- How long a host waits for something to happen, in microseconds. -/
def patience : Nat := 5000000

namespace Worker

/-- A worker that was never started. -/
def idle : Worker := ⟨false, 0, 0⟩

/-- Starts calling back every `interval` microseconds. -/
def start (w : Worker) (interval : Nat) : Worker := ⟨true, interval, w.starts + 1⟩

/-- Ends the callbacks. -/
def stop (w : Worker) : Worker := { w with alive := false }

/-- Starts a worker unless it already runs. -/
def ensureRunning (w : Worker) (interval : Nat) : Worker :=
  if w.alive then w else w.start interval

/-- How often the worker calls back after the instant `before` and up to the instant `now`, both
in microseconds. -/
def firings (w : Worker) (before now : Nat) : Nat :=
  if w.alive then now / (max w.interval 1) - before / (max w.interval 1) else 0

/-- The shortest interval of those workers that run; if none does, the patience of a host. -/
def shortestInterval (ws : List Worker) : Nat :=
  (ws.filter alive).foldl (fun shortest w => min shortest w.interval) patience

end Worker

/-! ## Waiting -/

/-- Lets time pass in `beats` stretches of `beat` microseconds until a condition holds;
`pass before now` is what happens between two instants. -/
def waitBeats {σ : Type} (beat : Nat) (pass : Nat → Nat → σ → σ) (done : σ → Bool)
    (now : Nat) : (beats : Nat) → σ → σ
  | 0, s => s
  | beats + 1, s =>
    if done s then s
    else waitBeats beat pass done (now + beat) beats (pass now (now + beat) s)

/-- Lets time pass in stretches of `beat` microseconds until a condition holds, as long as the
patience of the host lasts. -/
def waitUntil {σ : Type} (beat : Nat) (pass : Nat → Nat → σ → σ) (done : σ → Bool) (s : σ) : σ :=
  waitBeats (max beat 1) pass done 0 (patience / max beat 1) s

end Chip8
