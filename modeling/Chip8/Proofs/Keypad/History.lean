import Chip8.Keypad.Event
import Chip8.Proofs.Run.Waiting
import Chip8.Proofs.Text.Messages

/-!
# The history of a keypad

A key is down if the last event that concerned it moved it down, whether that event moved one key or
all of them.  Codes above `F` concern no key: they are reported, each of them once, and that is all.

Programs ask for keys in two ways.  `FX0A` takes the lowest key that is down, and `EX9E` and `EXA1` ask
for the key in a register.  Both questions go to the same sixteen keys, so right behind `FX0A` the key
in its register is down: `EX9E` skips and `EXA1` does not.

## What is here

* `Keypad.Event.position?`, `Keypad.lastPosition` — where events leave a key.
* `Keypad.Event.unmapped?` — the codes that belong to no key.
* `Keypad.isPressed_run`, `Keypad.log_run` — keys and records after a list of events;
  `Keypad.messages_run_inj` — the codes can be read in what the log says.
* `Machine.StandsAt`, `Machine.cycle_of_skipIf` — the instruction that the next cycle executes, and
  where it leads if it is one that skips.
* `Keypad.keypad_history` — the history of a keypad, and what a program makes of it.
-/

set_option autoImplicit false

namespace Chip8
namespace Keypad

variable {k : Keypad} {e : Event} {c : UInt8}

/-! ## What a history says -/

/-- The position in which an event leaves a key, if it concerns it. -/
def Event.position? (c : UInt8) : Event → Option Bool
  | .press code => if code = c then some true else none
  | .release code => if code = c then some false else none
  | .set code down => if code = c then some down else none
  | .setAll keys => keys[c.toNat]?
  | .reset => some false

/-- **The position in which the last event that concerned a key left it**; up if there was none. -/
def lastPosition (es : List Event) (c : UInt8) : Bool :=
  (es.reverse.findSome? (Event.position? c)).getD false

/-- The code that an event names, if it belongs to no key. -/
def Event.unmapped? : Event → Option UInt8
  | .press code | .release code | .set code _ => if 15 < code.toNat then some code else none
  | .setAll _ | .reset => none

/-! ## One event -/

theorem isPressed_of_le (h : 16 ≤ c.toNat) : k.isPressed c = false := by
  rw [isPressed, Vector.getElem?_eq_none h]
  rfl

/-- A key that is moved is where it was moved to, and all others stay. -/
theorem isPressed_set (code : UInt8) (down : Bool) (h : c.toNat < 16) :
    (k.set code down).state.isPressed c = if code = c then down else k.isPressed c := by
  rw [set]
  by_cases hcode : code.toNat < 16
  · rw [dif_pos hcode]
    by_cases heq : code = c
    · subst heq
      rw [if_pos rfl, isPressed, Vector.getElem?_set_self hcode, Option.getD_some]
    · have hne : code.toNat ≠ c.toNat := fun hn => heq (UInt8.toNat_inj.1 hn)
      rw [if_neg heq, isPressed, isPressed, Vector.getElem?_set_ne hcode hne]
  · have hne : code ≠ c := fun heq => hcode (heq ▸ h)
    rw [dif_neg hcode, if_neg hne]

/-- **A key after an event** is where the event leaves it, and else where it was. -/
theorem isPressed_act (h : c.toNat < 16) :
    (k.act e).state.isPressed c = (e.position? c).getD (k.isPressed c) := by
  cases e with
  | press code | release code | set code _ =>
    refine (isPressed_set code _ h).trans ?_
    rw [Event.position?]
    split <;> rfl
  | setAll keys => rw [act, isPressed, Event.position?, Vector.getElem?_eq_getElem h]; rfl
  | reset => exact congrArg (·.getD false) (Vector.getElem?_replicate.trans (if_pos h))

theorem log_set (code : UInt8) (down : Bool) :
    (k.set code down).log = if 15 < code.toNat then [.unmappedKey code] else [] := by
  rw [set]
  by_cases hcode : code.toNat < 16
  · rw [dif_pos hcode, if_neg (by omega)]
  · rw [dif_neg hcode, if_pos (by omega)]

/-- **The records of an event.** -/
theorem log_act : (k.act e).log = e.unmapped?.toList.map .unmappedKey := by
  cases e with
  | press code | release code | set code _ =>
    refine (log_set code _).trans ?_
    rw [Event.unmapped?]
    split <;> rfl
  | setAll | reset => rfl

/-- **A code that belongs to no key moves none.** -/
theorem state_act_of_unmapped (h : e.unmapped? = some c) : (k.act e).state = k := by
  cases e with
  | press code | release code | set code _ =>
    have hcode : ¬ code.toNat < 16 := by
      rw [Event.unmapped?, Option.ite_none_right_eq_some] at h
      omega
    exact congrArg Outcome.state (dif_neg hcode)
  | setAll | reset => cases h

/-! ## Lists of events -/

/-- **A key is where the last event that concerned it left it.** -/
theorem isPressed_run (h : c.toNat < 16) (es : List Event) :
    (k.run es).state.isPressed c =
      (es.reverse.findSome? (Event.position? c)).getD (k.isPressed c) := by
  induction es generalizing k with
  | nil => rfl
  | cons e es ih =>
    change ((k.act e).state.run es).state.isPressed c = _
    rw [ih, isPressed_act h, List.reverse_cons, List.findSome?_append, List.findSome?_singleton,
      Option.getD_or]

/-- **The records of a list of events.** -/
theorem log_run (es : List Event) :
    (k.run es).log = (es.filterMap Event.unmapped?).map .unmappedKey := by
  induction es generalizing k with
  | nil => rfl
  | cons e es ih =>
    change (k.act e).log ++ ((k.act e).state.run es).log = _
    rw [ih, log_act, List.filterMap_cons]
    cases e.unmapped? <;> rfl

/-- **What the log says tells the codes** that belong to no key, and their order. -/
theorem messages_run_inj {k k' : Keypad} {es es' : List Event} :
    (k.run es).log.map Record.message = (k'.run es').log.map Record.message ↔
      es.filterMap Event.unmapped? = es'.filterMap Event.unmapped? := by
  have hcode : Function.Injective (Record.message ∘ Record.unmappedKey) := by
    intro c d h
    exact Record.eq_of_message_unmappedKey h
  rw [log_run, log_run, List.map_map, List.map_map]
  exact (List.map_injective_iff.2 hcode).eq_iff

end Keypad

/-! ## Instructions that ask for keys -/

namespace Machine

variable {m : Machine} {i : Instruction} {x : Nat}

/-- **The next cycle executes a word**: it stands at the program counter, and both of its bytes are in
memory. -/
def StandsAt (m : Machine) (w : Nat) : Prop :=
  m.pc.toNat + 1 < 4096 ∧ (m.memory.word m.pc.toNat).toNat = w

theorem cycle_of_standsAt (hi : i.Encodable) (h : m.StandsAt i.code) :
    m.cycle = (m.fetched (m.memory.word m.pc.toNat)).perform i :=
  cycle_eq_perform (fetch_eq_ok_iff.2 ⟨Nat.lt_of_succ_lt_succ h.1, rfl⟩)
    (Instruction.ofOpcode?_eq_some_iff.2 ⟨hi, h.2⟩)

/-- **An instruction that skips if a condition holds** leads four bytes further, and else two. -/
theorem cycle_of_skipIf {b : Bool} (hi : i.Encodable) (h : m.StandsAt i.code)
    (hskip : ∀ w, (m.fetched w).execute i = (m.fetched w).goTo (.skipIf b)) :
    m.cycle.result = .ok .proceed ∧
      m.cycle.state.pc.toNat = m.pc.toNat + if b then 4 else 2 := by
  have hpc : m.pc.toNat ≤ 0x10FE := by
    have := h.1
    omega
  rw [cycle_of_standsAt hi h, perform_of_ok (congrArg Outcome.result (hskip _))]
  refine ⟨rfl, (toNat_target hpc (.skipIf b)).trans ?_⟩
  cases b <;> rfl

end Machine

namespace Keypad

/-- **The history of a keypad.**  After any list of events a key is down if the last event that concerned
it moved it down; there are no keys above `F`.  An event that names one of these moves nothing and makes
one record, and no other event makes any.  Some key is down if and only if there is a lowest one, which
is down and below all others that are.  While some key is down, a program at `FX0A` takes the lowest one;
if `EX9E` with the same register comes next it skips, and if `EXA1` does, it does not. -/
theorem keypad_history (es : List Event) :
    let k := (released.run es).state
    (∀ c, k.isPressed c = true ↔ c.toNat < 16 ∧ lastPosition es c = true) ∧
    (∀ e c, e.unmapped? = some c → (k.act e).state = k ∧
      (k.act e).log.map (fun r => (r.level, r.message)) =
        [(.debug, "ignoring unmapped key " ++ Numeral.markedHexString 1 c.toNat)]) ∧
    (released.run es).log = (es.filterMap Event.unmapped?).map .unmappedKey ∧
    (k.anyPressed = true ↔ ∃ c, k.isPressed c = true) ∧
    (k.anyPressed = true ↔ k.lowest?.isSome) ∧
    (∀ c, k.lowest? = some c ↔ k.isPressed c = true ∧ ∀ d, k.isPressed d = true → c ≤ d) ∧
    ∀ (m : Machine) x, m.keypad = k → m.AtAwaitKey x → k.anyPressed = true →
      let taken := m.cycle.state
      m.cycle.result = .ok .proceed ∧ k.lowest? = some (taken.v.get x) ∧
      (taken.StandsAt (0xE09E + x * 256) → taken.cycle.result = .ok .proceed ∧
        taken.cycle.state.pc.toNat = taken.pc.toNat + 4) ∧
      (taken.StandsAt (0xE0A1 + x * 256) → taken.cycle.result = .ok .proceed ∧
        taken.cycle.state.pc.toNat = taken.pc.toNat + 2) := by
  intro k
  have hlowest : k.anyPressed = true ↔ k.lowest?.isSome := by
    rw [Option.isSome_iff_ne_none, ne_eq, lowest?_eq_none_iff, Bool.not_eq_false]
  refine ⟨fun c => ?pressed, fun e c he => ⟨state_act_of_unmapped he, ?record⟩, log_run es,
    anyPressed_iff, hlowest, fun c => lowest?_eq_some_iff, fun m x hk hat hany => ?program⟩
  case pressed =>
    rcases Nat.lt_or_ge c.toNat 16 with hc | hc
    · have hup : released.isPressed c = false :=
        congrArg (·.getD false) (Vector.getElem?_replicate.trans (if_pos hc))
      rw [isPressed_run hc, hup, and_iff_right hc]
      rfl
    · rw [isPressed_of_le hc]
      exact iff_of_false Bool.false_ne_true fun h => Nat.not_lt.2 hc h.1
  case record =>
    rw [log_act, he]
    rfl
  case program =>
    intro taken
    obtain ⟨c, hc⟩ := Option.isSome_iff_exists.1 (hlowest.1 hany)
    obtain ⟨hresult, hstate⟩ := Machine.cycle_of_lowest hat (hk ▸ hc)
    have hx : x < 16 := hat.2.1
    have hregister : taken.v.get x = c := by
      have hv : taken.v = m.v.set x c := congrArg Machine.v hstate
      rw [hv, Registers.get_set, if_pos ⟨rfl, hx⟩]
    have hkeypad : taken.keypad = k := (congrArg Machine.keypad hstate).trans hk
    have hdown : taken.keypad.isPressed (taken.v.get x) = true := by
      rw [hkeypad, hregister]
      exact (lowest?_eq_some_iff.1 hc).1
    refine ⟨hresult, hregister ▸ hc, fun hat => ?_, fun hat => ?_⟩
    · have hi : (Instruction.skipPressed x).Encodable := ⟨hx, by simp, by simp⟩
      exact Machine.cycle_of_skipIf hi hat fun w =>
        congrArg (fun down => (taken.fetched w).goTo (.skipIf down)) hdown
    · have hi : (Instruction.skipNotPressed x).Encodable := ⟨hx, by simp, by simp⟩
      exact Machine.cycle_of_skipIf hi hat fun w =>
        congrArg (fun down => (taken.fetched w).goTo (.skipIf !down)) hdown

/-- A program takes the lowest of three keys, asks for it and skips. -/
example :
    let k := (released.run [.press 0xA, .set 7 true, .press 3, .release 0x13]).state
    let m := ((Machine.new default default none).load [0xF1, 0x0A, 0xE1, 0x9E]).state.setKeys k
    m.cycle.state.v.get 1 = 3 ∧ m.cycle.state.cycle.state.pc = 0x206 := by
  decide +kernel

end Keypad
end Chip8
