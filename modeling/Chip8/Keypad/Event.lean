import Chip8.Keypad

/-!
# Runs of a keypad

Everything that can be done to a keypad, as a list of events.

## What is here

* `Keypad.Event`, `Keypad.act` — one event.
* `Keypad.run` — one event after the other.
-/

namespace Chip8

/-- Something that is done to a keypad. -/
inductive Keypad.Event
  /-- A key goes down. -/
  | press (code : UInt8)
  /-- A key goes up. -/
  | release (code : UInt8)
  /-- A key goes down or up. -/
  | set (code : UInt8) (down : Bool)
  /-- Every key goes down or up. -/
  | setAll (keys : Vector Bool 16)
  /-- Every key goes up. -/
  | reset
deriving DecidableEq

namespace Keypad

/-- What one event does. -/
def act (k : Keypad) : Event → Outcome Keypad Unit
  | .press code => k.press code
  | .release code => k.release code
  | .set code down => k.set code down
  | .setAll keys => ⟨⟨keys⟩, (), []⟩
  | .reset => ⟨released, (), []⟩

/-- What a list of events does. -/
def run (k : Keypad) : List Event → Outcome Keypad Unit
  | [] => ⟨k, (), []⟩
  | e :: es => (k.act e).andThen fun k => k.run es

end Keypad
end Chip8
