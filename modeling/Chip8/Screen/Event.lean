import Chip8.Screen

/-!
# Runs of a screen

Everything that can be done to a screen, as a list of events.

## What is here

* `Screen.Event`, `Screen.act` — one event.
* `Screen.run` — one event after the other.
-/

namespace Chip8

/-- Something that is done to a screen. -/
inductive Screen.Event
  /-- The pixel at an index is flipped. -/
  | toggle (index : Nat)
  /-- All pixels go off. -/
  | clear
deriving DecidableEq

namespace Screen

/-- What one event does, and whether it failed.  A screen stays as it is if a pixel is missing. -/
def act (s : Screen) : Event → Screen × Except Fault Unit
  | .toggle i =>
    match s.toggle i with
    | .error f => (s, .error f)
    | .ok s' => (s', .ok ())
  | .clear => (dark, .ok ())

/-- The screen after a list of events. -/
def run (s : Screen) (es : List Event) : Screen := es.foldl (fun s e => (s.act e).1) s

end Screen
end Chip8
