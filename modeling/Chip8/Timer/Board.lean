import Chip8.Timer.Basic
import Chip8.Timer.Speaker

/-!
# Timer boards

A timer can be watched and set from many places at once.  A board holds a timer, the handles given
out for it, handles on values of their own, and the speakers that poll any of them.

## What is here

* `TimerBoard.Handle` — the value that a handle reads and writes.
* `TimerBoard.read`, `TimerBoard.write` — the value behind a handle.
* `TimerBoard.take`, `TimerBoard.decrement` — the two combined accesses.
* `TimerBoard.addHandle`, `TimerBoard.cloneHandle`, `TimerBoard.addSeparate` — new handles.
* `TimerBoard.startSpeaker`, `TimerBoard.pollSpeaker`, `TimerBoard.stopSpeaker` — speakers.
* `TimerBoard.elapse`, `TimerBoard.await` — what happens while time passes.
-/

namespace Chip8

/-- The value that a handle reads and writes. -/
inductive TimerBoard.Handle
  /-- The value of the board's timer. -/
  | timer
  /-- A value of its own, by its number. -/
  | separate (k : Nat)
deriving DecidableEq, Inhabited

/-- A timer with the handles and speakers around it. -/
structure TimerBoard where
  /-- The timer. -/
  timer : Timer
  /-- The values that are not the timer's. -/
  separate : List UInt8
  /-- The handles in the order in which they were given out. -/
  handles : List TimerBoard.Handle
  /-- The speakers in the order of their start, each with the handle it polls. -/
  speakers : List (TimerBoard.Handle × Speaker)

namespace TimerBoard

/-- A stopped timer at zero with a single handle on it. -/
def new (interval : Nat) : TimerBoard := ⟨.new interval, [], [.timer], []⟩

/-! ## Values -/

/-- The value behind a handle. -/
def read (b : TimerBoard) : Handle → UInt8
  | .timer => b.timer.value
  | .separate k => b.separate[k]?.getD 0

/-- Sets the value behind a handle. -/
def write (b : TimerBoard) (h : Handle) (value : UInt8) : TimerBoard :=
  match h with
  | .timer => { b with timer := b.timer.set value }
  | .separate k => { b with separate := b.separate.set k value }

/-- Sets the value behind a handle to zero; the result is what was there before. -/
def take (b : TimerBoard) (h : Handle) : UInt8 × TimerBoard := (b.read h, b.write h 0)

/-- Counts the value behind a handle down; the result is the new value. -/
def decrement (b : TimerBoard) (h : Handle) : UInt8 × TimerBoard :=
  (countDown (b.read h), b.write h (countDown (b.read h)))

/-- Counts the value behind a handle down `n` times; the results are the values on the way. -/
def decrements (b : TimerBoard) (h : Handle) : Nat → List UInt8 × TimerBoard
  | 0 => ([], b)
  | n + 1 =>
    let first := b.decrement h
    let rest := first.2.decrements h n
    (first.1 :: rest.1, rest.2)

/-! ## Handles -/

/-- The handle with a number; a number that was not given out means the timer. -/
def handle (b : TimerBoard) (i : Nat) : Handle := b.handles[i]?.getD .timer

/-- Gives out another handle on the timer. -/
def addHandle (b : TimerBoard) : TimerBoard := { b with handles := b.handles ++ [.timer] }

/-- Gives out another handle on the value behind a handle. -/
def cloneHandle (b : TimerBoard) (h : Handle) : TimerBoard :=
  { b with handles := b.handles ++ [h] }

/-- Gives out a handle on a new value. -/
def addSeparate (b : TimerBoard) (value : UInt8) : TimerBoard :=
  { b with
    separate := b.separate ++ [value]
    handles := b.handles ++ [.separate b.separate.length] }

/-- The values behind all handles. -/
def values (b : TimerBoard) : List UInt8 := b.handles.map b.read

/-! ## The timer's worker -/

/-- Starts the countdown of the timer. -/
def start (b : TimerBoard) : TimerBoard := { b with timer := b.timer.start }

/-- Stops the countdown of the timer. -/
def stop (b : TimerBoard) : TimerBoard := { b with timer := b.timer.stop }

/-- The timer's worker calls back. -/
def tick (b : TimerBoard) : TimerBoard := { b with timer := b.timer.tick }

/-! ## Speakers -/

/-- Starts a speaker that polls the value behind a handle. -/
def startSpeaker (b : TimerBoard) (h : Handle) (interval : Nat) : TimerBoard :=
  { b with speakers := b.speakers ++ [(h, .start .host interval)] }

/-- The worker of speaker `k` calls back. -/
def pollSpeaker (b : TimerBoard) (k : Nat) : TimerBoard :=
  match b.speakers[k]? with
  | none => b
  | some (h, s) =>
    let polled := s.poll (b.read h)
    ({ b with speakers := b.speakers.set k (h, polled.state) }).write h polled.result

/-- Stops speaker `k`. -/
def stopSpeaker (b : TimerBoard) (k : Nat) : TimerBoard :=
  { b with speakers := b.speakers.modify k fun s => (s.1, s.2.stop) }

/-- The worker of speaker `k`; one that was not started never runs. -/
def speakerWorker (b : TimerBoard) (k : Nat) : Worker :=
  match b.speakers[k]? with
  | none => .idle
  | some (_, s) => s.worker

/-- Whether speaker `k` is polling. -/
def speakerAlive (b : TimerBoard) (k : Nat) : Bool := (b.speakerWorker k).alive

/-- The number of beeps of all speakers. -/
def beeps (b : TimerBoard) : Nat := b.speakers.foldr (fun s n => s.2.heard + n) 0

/-- The worker of the timer, then those of the speakers. -/
def workers (b : TimerBoard) : List Worker := b.timer.worker :: b.speakers.map fun s => s.2.worker

/-! ## Time -/

/-- What happens between two instants: first the counts of the timer, then the polls. -/
def elapse (before now : Nat) (b : TimerBoard) : TimerBoard :=
  (List.range b.speakers.length).foldl
    (fun b k => Nat.repeat (fun b => b.pollSpeaker k) ((b.speakerWorker k).firings before now) b)
    (Nat.repeat tick (b.timer.worker.firings before now) b)

/-- Lets time pass until a condition holds, as long as the patience of the host lasts. -/
def await (b : TimerBoard) (done : TimerBoard → Bool) : TimerBoard :=
  waitUntil (Worker.shortestInterval b.workers) elapse done b

end TimerBoard
end Chip8
