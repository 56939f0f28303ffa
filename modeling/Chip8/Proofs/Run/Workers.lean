import Chip8.Machine.Event
import Chip8.Proofs.Cycle.Devices

/-!
# The workers of a machine

Both timers of a machine are started at its first power on, and their workers run ever after: power
on starts a timer only if it does not run.  The worker of a speaker runs from the moment the speaker
is attached until another one is attached in its place.  `Machine.Staffed` says so of one state; it
holds of new machines, and every event keeps it.

So a speaker that was replaced does nothing any more, whatever calls it back.

## What is here

* `Worker.onDuty` — a worker that was started once and runs.
* `Machine.Staffed`, `Staffed.handle`, `Staffed.run` — the invariant, one event, a list of events.
* `Staffed.pollSpeaker_former` — speakers that were replaced.
-/

set_option autoImplicit false

namespace Chip8

/-! ## Workers on duty -/

/-- A worker that was started once, at the pace of the timers, and runs. -/
def Worker.onDuty : Worker := Worker.idle.start Timer.standardInterval

namespace Timer

/-- The timer counts at the standard pace, and its worker was started once and runs. -/
structure OnDuty (t : Timer) : Prop where
  interval : t.interval = standardInterval
  worker : t.worker = .onDuty

variable {t : Timer}

/-- A timer that runs is left alone by a start. -/
theorem start_of_alive (h : t.worker.alive = true) : t.start = t := by
  rw [start, Worker.ensureRunning, if_pos h]

/-- A start leaves a timer running. -/
theorem isRunning_start (t : Timer) : t.start.isRunning = true := by
  rw [isRunning, start, Worker.ensureRunning]
  split
  · assumption
  · rfl

theorem OnDuty.alive (h : t.OnDuty) : t.worker.alive = true := by
  rw [h.worker]
  rfl

theorem OnDuty.set (h : t.OnDuty) (value : UInt8) : (t.set value).OnDuty := { h with }

theorem OnDuty.start (h : t.OnDuty) : t.start.OnDuty := by
  rw [start_of_alive h.alive]
  exact h

theorem OnDuty.tick (h : t.OnDuty) : t.tick.OnDuty := by
  rw [Timer.tick, if_pos h.alive]
  exact { h with }

/-- Timers on duty differ in their values at most. -/
theorem OnDuty.eq_of_value {t' : Timer} (h : t.OnDuty) (h' : t'.OnDuty)
    (hvalue : t.value = t'.value) : t = t' := by
  cases t
  cases t'
  simp only [mk.injEq]
  exact ⟨hvalue, h.interval.trans h'.interval.symm, h.worker.trans h'.worker.symm⟩

end Timer

namespace Speaker

variable {s : Speaker}

/-- A speaker that was stopped makes no beep and leaves the timer alone. -/
theorem poll_of_stopped (h : s.worker.alive = false) (value : UInt8) :
    s.poll value = ⟨s, value, []⟩ := by
  rw [poll, h]
  rfl

/-- A speaker that runs clears the timer, with a beep unless it is zero. -/
theorem poll_of_alive (h : s.worker.alive = true) (value : UInt8) :
    s.poll value =
      if value = 0 then ⟨s, 0, []⟩ else s.beep.mapResult fun _ => 0 := by
  rw [poll, if_pos h]

/-- A poll neither starts nor stops the speaker. -/
theorem worker_poll (s : Speaker) (value : UInt8) : (s.poll value).state.worker = s.worker := by
  rw [poll]
  split
  · split <;> rfl
  · rfl

/-- A beep is heard if the host makes it. -/
theorem heard_beep (s : Speaker) :
    s.beep.state.heard = s.heard + if s.sound = .host then 1 else 0 := by
  rw [heard, heard, beep]
  cases s.sound <;> rfl

end Speaker

namespace Machine

/-! ## The invariant -/

/-- **The workers of a machine are in order**: both timers run, the attached speaker runs, and the
speakers it replaced do not. -/
structure Staffed (m : Machine) : Prop where
  delay : m.delay.OnDuty
  sound : m.sound.OnDuty
  attached : ∀ s ∈ m.speakers.head?, s.worker = .onDuty
  former : ∀ s ∈ m.speakers.tail, s.worker.alive = false

variable {m : Machine}

/-- Nothing polls as long as no speaker was attached. -/
theorem pollSpeaker_nil (h : m.speakers = []) (age : Nat) : m.pollSpeaker age = ⟨m, (), []⟩ := by
  rw [pollSpeaker, h]
  rfl

/-- The speaker that is attached is a new one. -/
theorem head?_attach (m : Machine) (sound : Sound) :
    (m.attach sound).speakers.head? = some (.start sound Timer.standardInterval) := by
  rw [attach]
  cases m.speakers <;> rfl

/-- The first power on starts the timers. -/
theorem staffed_new (dialect : Dialect) (random : RandomSource) (cycleDelay : Option Nat) :
    (new dialect random cycleDelay).Staffed where
  delay := ⟨rfl, rfl⟩
  sound := ⟨rfl, rfl⟩
  attached s hs := by simp [new, reset] at hs
  former s hs := by simp [new, reset] at hs

namespace Staffed

/-- Another power on finds them running. -/
theorem reset (h : m.Staffed) : m.reset.Staffed where
  delay := (h.delay.set 0).start
  sound := (h.sound.set 0).start
  attached := by simpa only [Machine.reset] using h.attached
  former := by simpa only [Machine.reset] using h.former

/-- A speaker that is attached runs, and the one it replaces is stopped. -/
theorem attach (h : m.Staffed) (sound : Sound) : (m.attach sound).Staffed where
  delay := h.delay
  sound := h.sound
  attached := by
    intro s hs
    rw [head?_attach] at hs
    exact Option.some.inj hs ▸ rfl
  former := by
    have hformer := h.former
    rw [Machine.attach]
    cases hspeakers : m.speakers with
    | nil => exact fun s hs => absurd hs List.not_mem_nil
    | cons former older =>
      rw [hspeakers] at hformer
      intro s hs
      rcases List.mem_cons.1 hs with rfl | hs
      · rfl
      · exact hformer s hs

/-- **A speaker that was replaced does nothing**, whatever calls it back. -/
theorem pollSpeaker_former (h : m.Staffed) (age : Nat) :
    m.pollSpeaker (age + 1) = ⟨m, (), []⟩ := by
  rw [Machine.pollSpeaker]
  cases hspeaker : m.speakers[age + 1]? with
  | none => rfl
  | some s =>
    have hs : s ∈ m.speakers.tail := by
      rw [List.mem_iff_getElem?]
      exact ⟨age, by rw [List.getElem?_tail, hspeaker]⟩
    have hset : m.speakers.set (age + 1) s = m.speakers := by
      obtain ⟨hlt, rfl⟩ := List.getElem?_eq_some_iff.1 hspeaker
      exact List.set_getElem_self hlt
    simp only [Speaker.poll_of_stopped (h.former s hs), hset]
    rfl

/-- **The callback of the attached speaker** makes a beep and clears the sound timer, unless that
is zero. -/
theorem pollSpeaker_attached (h : m.Staffed) {s : Speaker} {older : List Speaker}
    (hspeakers : m.speakers = s :: older) :
    m.pollSpeaker 0 =
      if m.sound.value = 0 then ⟨m, (), []⟩
      else ⟨{ m with speakers := s.beep.state :: older, sound := m.sound.set 0 }, (),
        s.beep.log⟩ := by
  have halive : s.worker.alive = true := by
    rw [h.attached s (by rw [hspeakers]; rfl)]
    rfl
  rw [Machine.pollSpeaker, show m.speakers[0]? = some s by rw [hspeakers]; rfl]
  simp only [Speaker.poll_of_alive halive]
  split
  next hvalue =>
    have hset : m.speakers.set 0 s = m.speakers := by rw [hspeakers]; rfl
    have hsound : m.sound.set 0 = m.sound := by rw [Timer.set, ← hvalue]
    simp only [hset, hsound]
  next => rw [hspeakers]; rfl

/-- Neither of them starts or stops a speaker. -/
theorem pollSpeaker (h : m.Staffed) (age : Nat) : (m.pollSpeaker age).state.Staffed := by
  cases age with
  | succ age =>
    rw [h.pollSpeaker_former]
    exact h
  | zero =>
    rw [Machine.pollSpeaker]
    cases hspeakers : m.speakers with
    | nil => exact h
    | cons s older =>
      have hattached := h.attached
      have hformer := h.former
      rw [hspeakers] at hattached hformer
      refine ⟨h.delay, h.sound.set _, fun polled hpolled => ?_, hformer⟩
      obtain rfl := Option.some.inj hpolled
      exact (s.worker_poll _).trans (hattached s rfl)

/-- A cycle sets timers at most. -/
theorem cycle (h : m.Staffed) : m.cycle.state.Staffed := by
  have hdevices := m.devices_cycle
  refine ⟨?delay, ?sound, ?attached, ?former⟩
  case delay =>
    rw [show m.cycle.state.delay = _ from congrArg Devices.delay hdevices]
    unfold devicesAfter
    split
    case h_1 => exact h.delay.set _
    all_goals exact h.delay
  case sound =>
    rw [show m.cycle.state.sound = _ from congrArg Devices.sound hdevices]
    unfold devicesAfter
    split
    case h_2 => exact h.sound.set _
    all_goals exact h.sound
  case attached => exact m.speakers_cycle ▸ h.attached
  case former => exact m.speakers_cycle ▸ h.former

/-- **Every event keeps the workers in order.** -/
theorem handle (h : m.Staffed) (e : Event) : (m.handle e).state.Staffed := by
  cases e with
  | load rom => exact { h with }
  | reset => exact h.reset
  | setKey code down => exact { h with }
  | setKeys keypad => exact { h with }
  | attach sound => exact h.attach sound
  | tickDelay => exact { h with delay := h.delay.tick }
  | tickSound => exact { h with sound := h.sound.tick }
  | pollSpeaker age => exact h.pollSpeaker age
  | cycle => exact h.cycle

/-- So every run does. -/
theorem run (h : m.Staffed) (es : List Event) : (m.run es).state.Staffed := by
  induction es generalizing m with
  | nil => exact h
  | cons e es ih => exact ih (h.handle e)

end Staffed
end Machine
end Chip8
