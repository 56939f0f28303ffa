import Chip8.Timer.Board

/-!
# Runs of a timer board

Everything that can happen to a timer board, as a list of events.  The host, the worker of the timer
and the workers of the speakers act in any order; each event is one access to the board.

## What is here

* `TimerBoard.Event`, `TimerBoard.act` — one event.
* `TimerBoard.run` — one event after the other.
-/

namespace Chip8

/-- Something that happens to a timer board.  Handles and speakers go by their numbers. -/
inductive TimerBoard.Event
  /-- The countdown of the timer is started. -/
  | start
  /-- The countdown of the timer is stopped. -/
  | stop
  /-- The timer's worker calls back. -/
  | tick
  /-- The value behind a handle is set. -/
  | write (handle : Nat) (value : UInt8)
  /-- The value behind a handle is set to zero, for a host that wants to know what was there. -/
  | take (handle : Nat)
  /-- The value behind a handle is counted down. -/
  | decrement (handle : Nat)
  /-- Another handle on the timer is given out. -/
  | addHandle
  /-- Another handle on the value behind a handle is given out. -/
  | cloneHandle (handle : Nat)
  /-- A handle on a new value is given out. -/
  | addSeparate (value : UInt8)
  /-- A speaker starts to poll the value behind a handle. -/
  | startSpeaker (handle interval : Nat)
  /-- A speaker's worker calls back. -/
  | pollSpeaker (speaker : Nat)
  /-- A speaker is stopped. -/
  | stopSpeaker (speaker : Nat)

namespace TimerBoard

/-- What one event does. -/
def act (b : TimerBoard) : Event → TimerBoard
  | .start => b.start
  | .stop => b.stop
  | .tick => b.tick
  | .write i value => b.write (b.handle i) value
  | .take i => (b.take (b.handle i)).2
  | .decrement i => (b.decrement (b.handle i)).2
  | .addHandle => b.addHandle
  | .cloneHandle i => b.cloneHandle (b.handle i)
  | .addSeparate value => b.addSeparate value
  | .startSpeaker i interval => b.startSpeaker (b.handle i) interval
  | .pollSpeaker k => b.pollSpeaker k
  | .stopSpeaker k => b.stopSpeaker k

/-- What a list of events does. -/
def run (b : TimerBoard) (es : List Event) : TimerBoard := es.foldl act b

end TimerBoard
end Chip8
