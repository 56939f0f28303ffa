import Chip8.Worker.Basic

/-!
# Timers

A timer holds a byte that its worker counts down to zero.

## What is here

* `countDown` — one count; zero stays zero.
* `Timer.start`, `Timer.stop`, `Timer.tick` — a timer with its worker.
-/

namespace Chip8

/-- Counts down by one; zero stays zero. -/
def countDown (value : UInt8) : UInt8 := UInt8.ofNat (value.toNat - 1)

theorem toNat_countDown (value : UInt8) : (countDown value).toNat = value.toNat - 1 := by
  have := value.toNat_lt
  simp only [countDown, UInt8.toNat_ofNat']
  omega

/-- A value, how fast it is counted down (in microseconds for each count), and the worker that
does it. -/
structure Timer where
  value : UInt8
  interval : Nat
  worker : Worker
deriving DecidableEq, Inhabited

namespace Timer

/-- How often the timers of the machine count in a second. -/
def rate : Nat := 60

/-- The microseconds between two counts at that rate. -/
def standardInterval : Nat := 1000000 / rate

/-- A stopped timer at zero. -/
def new (interval : Nat) : Timer := ⟨0, interval, .idle⟩

/-- Starts the countdown; a timer that already runs goes on undisturbed. -/
def start (t : Timer) : Timer := { t with worker := t.worker.ensureRunning t.interval }

/-- Stops the countdown. -/
def stop (t : Timer) : Timer := { t with worker := t.worker.stop }

/-- Whether the countdown runs. -/
def isRunning (t : Timer) : Bool := t.worker.alive

/-- Sets the value to count down from. -/
def set (t : Timer) (value : UInt8) : Timer := { t with value }

/-- The worker calls back: one count, unless the timer is stopped. -/
def tick (t : Timer) : Timer := if t.worker.alive then { t with value := countDown t.value } else t

end Timer

end Chip8
