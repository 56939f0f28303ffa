import Chip8.Timer.Event
import Chip8.Proofs.Lists
import Chip8.Proofs.Run.PowerCycle
import Chip8.Proofs.Timer.Polled

/-!
# Every beep is accounted for

The sound timer of a machine is a value that is polled: `FX18` and the power switch set it, its
worker counts it down, and the speaker polls it.  The timer of a board is such a value too, with any
number of handles to set it and any number of speakers to poll it.  So both are systems in the sense
of `Polled`, and which of their polls beep is settled by the order in which all of them act.

## What is here

* `TimerBoard.polledTimer` — the timer of a board.
* `Machine.polledSound` — the sound timer of a machine.
* `beeps_accounted` — the beeps of either.
-/

set_option autoImplicit false

namespace Chip8

/-! ## One poll -/

/-- A speaker that polls takes the value away. -/
theorem Speaker.result_poll (s : Speaker) (value : UInt8) :
    (s.poll value).result = if s.worker.alive then 0 else value := by
  rw [poll]
  split
  · split <;> rfl
  · rfl

/-- It beeps if there was anything to take. -/
theorem Speaker.beeps_poll (s : Speaker) (value : UInt8) :
    (s.poll value).state.beeps = s.beeps + if s.worker.alive then PollStep.due value else 0 := by
  rw [poll, PollStep.due]
  split
  · split <;> rfl
  · rfl

/-! ## The timer of a board -/

namespace TimerBoard

/-- A step on the value behind a handle, if that is the timer. -/
def onTimer (h : Handle) (p : PollStep) : Option PollStep := if h = .timer then some p else none

/-- What an event does to the timer. -/
def timerStep? (b : TimerBoard) : Event → Option PollStep
  | .tick => if b.timer.worker.alive then some .count else none
  | .write i value => onTimer (b.handle i) (.set value)
  | .take i => onTimer (b.handle i) (.set 0)
  | .decrement i => onTimer (b.handle i) .count
  | .pollSpeaker k =>
    match b.speakers[k]? with
    | some (h, s) => if s.worker.alive then onTimer h (.poll k) else none
    | none => none
  | _ => none

/-- How often a speaker has beeped for the timer. -/
def timerBeeps (s : Handle × Speaker) : Nat := if s.1 = .timer then s.2.beeps else 0

theorem value_write (b : TimerBoard) (h : Handle) (value : UInt8) :
    (b.write h value).timer.value = if h = .timer then value else b.timer.value := by
  cases h <;> rfl

theorem speakers_write (b : TimerBoard) (h : Handle) (value : UInt8) :
    (b.write h value).speakers = b.speakers := by
  cases h <;> rfl

theorem pollSpeaker_of_some {b : TimerBoard} {k : Nat} {h : Handle} {s : Speaker}
    (hk : b.speakers[k]? = some (h, s)) :
    (b.pollSpeaker k).speakers = b.speakers.set k (h, (s.poll (b.read h)).state) ∧
      (b.pollSpeaker k).timer.value =
        if h = .timer then (s.poll (b.read h)).result else b.timer.value := by
  rw [pollSpeaker, hk]
  exact ⟨speakers_write _ _ _, value_write _ _ _⟩

/-- A poll adds a beep to the count of its speaker, if it polls the timer and there is anything to
take. -/
theorem timerBeeps_pollSpeaker {b : TimerBoard} {k : Nat} {h : Handle} {s : Speaker}
    (hk : b.speakers[k]? = some (h, s)) :
    (b.pollSpeaker k).speakers.map timerBeeps = (b.speakers.map timerBeeps).modify k
      (· + if h = .timer ∧ s.worker.alive then PollStep.due b.timer.value else 0) := by
  rw [(pollSpeaker_of_some hk).1]
  refine Lists.map_set_eq_modify hk ?_
  cases h with
  | timer =>
    simp only [timerBeeps, Speaker.beeps_poll, if_pos, true_and]
    rfl
  | separate j => rfl

theorem timerBeeps_stopSpeaker (b : TimerBoard) (k : Nat) :
    (b.stopSpeaker k).speakers.map timerBeeps = b.speakers.map timerBeeps := by
  refine List.ext_getElem? fun j => ?_
  rw [stopSpeaker, List.getElem?_map, List.getElem?_modify, List.getElem?_map]
  cases b.speakers[j]? with
  | none => split <;> rfl
  | some s => split <;> rfl

theorem timerStep?_eq_poll {b : TimerBoard} {e : Event} {k : Nat}
    (h : b.timerStep? e = some (.poll k)) :
    e = .pollSpeaker k ∧ ∃ s, b.speakers[k]? = some (.timer, s) ∧ s.worker.alive = true := by
  cases e with
  | pollSpeaker j =>
    simp only [timerStep?] at h
    cases hj : b.speakers[j]? with
    | none => rw [hj] at h; cases h
    | some p =>
      obtain ⟨g, s⟩ := p
      rw [hj] at h
      cases halive : s.worker.alive with
      | false => simp [halive] at h
      | true =>
        cases g with
        | timer =>
          obtain rfl : j = k := by simpa [halive, onTimer] using h
          exact ⟨rfl, s, hj, halive⟩
        | separate i => simp [halive, onTimer] at h
  | tick => simp only [timerStep?] at h; split at h <;> cases h
  | write | take | decrement => simp only [timerStep?, onTimer] at h; split at h <;> cases h
  | _ => cases h

theorem value_act (b : TimerBoard) (e : Event) :
    (b.act e).timer.value = (b.timerStep? e).elim b.timer.value (·.advance b.timer.value) := by
  cases e with
  | tick =>
    simp only [act, tick, Timer.tick, timerStep?]
    split <;> rfl
  | write i value | take i =>
    simp only [act, take, value_write, timerStep?, onTimer]
    split <;> rfl
  | decrement i =>
    simp only [act, decrement, value_write, timerStep?, onTimer]
    split
    next h => rw [h]; rfl
    next => rfl
  | pollSpeaker k =>
    simp only [act, timerStep?]
    cases hk : b.speakers[k]? with
    | none => simp [pollSpeaker, hk]
    | some p =>
      obtain ⟨h, s⟩ := p
      rw [(pollSpeaker_of_some hk).2, Speaker.result_poll]
      cases h with
      | timer => cases halive : s.worker.alive <;> simp [halive, onTimer, PollStep.advance, read]
      | separate j => cases halive : s.worker.alive <;> simp [halive, onTimer]
  | _ => rfl

theorem sum_timerBeeps_act {b : TimerBoard} {e : Event}
    (h : ∀ k, b.timerStep? e ≠ some (.poll k)) :
    ((b.act e).speakers.map timerBeeps).sum = (b.speakers.map timerBeeps).sum := by
  cases e with
  | pollSpeaker k =>
    simp only [act]
    cases hk : b.speakers[k]? with
    | none => simp [pollSpeaker, hk]
    | some p =>
      obtain ⟨g, s⟩ := p
      rw [timerBeeps_pollSpeaker hk, if_neg]
      · exact congrArg List.sum (List.modify_id _ _)
      · rintro ⟨rfl, halive⟩
        exact h k (by simp [timerStep?, hk, halive, onTimer])
  | write | take | decrement => exact congrArg _ (congrArg _ (speakers_write _ _ _))
  | startSpeaker i interval => simp [act, startSpeaker, timerBeeps, Speaker.start]
  | stopSpeaker k => exact congrArg List.sum (b.timerBeeps_stopSpeaker k)
  | _ => rfl

/-- The timer of a board with the speakers that poll it. -/
def polledTimer : Polled TimerBoard Event where
  handle := act
  value b := b.timer.value
  beeps b := b.speakers.map timerBeeps
  step? := timerStep?
  value_handle := value_act
  beeps_of_poll b e k h := by
    obtain ⟨rfl, s, hk, halive⟩ := timerStep?_eq_poll h
    rw [List.length_map]
    refine ⟨(List.getElem?_eq_some_iff.1 hk).1, (timerBeeps_pollSpeaker hk).trans ?_⟩
    simp [halive]
  sum_beeps _ _ h := sum_timerBeeps_act h

/-- Runs of the system are runs of the board. -/
theorem run_polledTimer (b : TimerBoard) (es : List Event) : polledTimer.run b es = b.run es := rfl

end TimerBoard

/-! ## The sound timer of a machine -/

namespace Machine

/-- What an event does to the sound timer. -/
def soundStep? (m : Machine) : Event → Option PollStep
  | .reset => some (.set 0)
  | .tickSound => if m.sound.worker.alive then some .count else none
  | .pollSpeaker age =>
    match m.speakers[age]? with
    | some s => if s.worker.alive then some (.poll age) else none
    | none => none
  | .cycle =>
    match m.next? with
    | some (.setSound x) => some (.set (m.v.get x))
    | _ => none
  | _ => none

theorem beeps_pollSpeaker {m : Machine} {age : Nat} {s : Speaker}
    (h : m.speakers[age]? = some s) :
    (m.pollSpeaker age).state.speakers.map Speaker.beeps =
      (m.speakers.map Speaker.beeps).modify age
        (· + if s.worker.alive then PollStep.due m.sound.value else 0) := by
  rw [pollSpeaker, h]
  exact Lists.map_set_eq_modify h (s.beeps_poll m.sound.value)

theorem soundStep?_eq_poll {m : Machine} {e : Event} {k : Nat}
    (h : m.soundStep? e = some (.poll k)) :
    e = .pollSpeaker k ∧ ∃ s, m.speakers[k]? = some s ∧ s.worker.alive = true := by
  cases e with
  | pollSpeaker j =>
    simp only [soundStep?] at h
    cases hj : m.speakers[j]? with
    | none => rw [hj] at h; cases h
    | some s =>
      rw [hj] at h
      cases halive : s.worker.alive with
      | false => simp [halive] at h
      | true =>
        obtain rfl : j = k := by simpa [halive] using h
        exact ⟨rfl, s, hj, halive⟩
  | tickSound => simp only [soundStep?] at h; split at h <;> cases h
  | cycle => simp only [soundStep?] at h; split at h <;> cases h
  | _ => cases h

theorem sound_handle (m : Machine) (e : Event) :
    (m.handle e).state.sound.value =
      (m.soundStep? e).elim m.sound.value (·.advance m.sound.value) := by
  cases e with
  | tickSound =>
    simp only [handle, tickSound, Timer.tick, soundStep?]
    split <;> rfl
  | pollSpeaker age =>
    simp only [handle, pollSpeaker, soundStep?]
    cases m.speakers[age]? with
    | none => rfl
    | some s =>
      simp only [Outcome.mapResult, Timer.set, Speaker.result_poll]
      cases s.worker.alive <;> rfl
  | cycle =>
    have hsound := congrArg (·.sound.value) m.devices_cycle
    refine hsound.trans ?_
    simp only [soundStep?]
    cases m.next? with
    | none => rfl
    | some i => cases i <;> rfl
  | _ => rfl

theorem sum_beeps_handle {m : Machine} {e : Event}
    (h : ∀ k, m.soundStep? e ≠ some (.poll k)) :
    ((m.handle e).state.speakers.map Speaker.beeps).sum = (m.speakers.map Speaker.beeps).sum := by
  cases he : e.forSound with
  | false => rw [m.speakers_handle he]
  | true =>
    cases e with
    | pollSpeaker age =>
      simp only [handle, Outcome.mapResult]
      cases hage : m.speakers[age]? with
      | none => simp [pollSpeaker, hage]
      | some s =>
        rw [beeps_pollSpeaker hage, if_neg]
        · exact congrArg List.sum (List.modify_id _ _)
        · intro halive
          exact h age (by simp [soundStep?, hage, halive])
    | attach sound =>
      simp only [handle, attach]
      cases m.speakers with
      | nil => rfl
      | cons former older => exact Nat.zero_add _
    | tickSound => rfl
    | load | reset | setKey | setKeys | tickDelay | cycle => cases he

/-- The sound timer of a machine with its speakers. -/
def polledSound : Polled Machine Event where
  handle m e := (m.handle e).state
  value m := m.sound.value
  beeps m := m.speakers.map Speaker.beeps
  step? := soundStep?
  value_handle := sound_handle
  beeps_of_poll m e k h := by
    obtain ⟨rfl, s, hk, halive⟩ := soundStep?_eq_poll h
    rw [List.length_map]
    refine ⟨(List.getElem?_eq_some_iff.1 hk).1, (beeps_pollSpeaker hk).trans ?_⟩
    simp [halive]
  sum_beeps _ _ h := sum_beeps_handle h

/-- Runs of the system are runs of the machine. -/
theorem run_polledSound (m : Machine) (es : List Event) :
    polledSound.run m es = (m.run es).state := by
  induction es generalizing m with
  | nil => rfl
  | cons e es ih => exact ih _

end Machine

/-! ## The account -/

/-- **Every beep is accounted for**, on a new board and on a new machine, however the writes, the
counts and the polls of any number of speakers follow one another.  A poll takes the value away, and
its speaker beeps once if nobody has polled since the value was last set and it has been counted down
fewer times than it was set to; else it does not beep, and nothing else makes it beep.  So there is
always a value other than zero that was set between two beeps, and there are no more beeps than such
values.  One of them makes no speaker beep in exactly these cases: another value is set, or it is
counted down to zero, before the next poll; or nobody polls any more.  The runs that are accounted for
are the runs of the board and of the machine. -/
theorem beeps_accounted :
    (∀ interval, TimerBoard.polledTimer.Accounted (.new interval)) ∧
      (∀ dialect random cycleDelay, Machine.polledSound.Accounted (.new dialect random cycleDelay)) ∧
      (∀ b es, TimerBoard.polledTimer.run b es = b.run es) ∧
      ∀ m es, Machine.polledSound.run m es = (m.run es).state :=
  ⟨fun _ => Polled.accounted _ rfl rfl, fun _ _ _ => Polled.accounted _ rfl rfl,
    TimerBoard.run_polledTimer, Machine.run_polledSound⟩

/-- The first of two speakers takes the sound, and a short one is over before anybody polls. -/
example :
    let b := (TimerBoard.new 1).run [.start, .startSpeaker 0 1, .startSpeaker 0 1, .write 0 2,
      .tick, .pollSpeaker 1, .pollSpeaker 0, .write 0 1, .tick, .pollSpeaker 0]
    b.speakers.map TimerBoard.timerBeeps = [0, 1] := by
  decide

end Chip8
