import Chip8.Proofs.Run.Wiring

/-!
# The roster of a machine's workers

A `Machine` has its timers and speakers as parts, so it goes without saying that a tick counts the
right timer and that a speaker polls the sound timer.  Here the same machine is seen as the workers
that it has created, each with a callback that was fixed when it was started, and as the values that
these callbacks share with the timers.  Then it is a property of the wiring which value a callback
finds, how many workers there are and which of them run; and both machines do the same
(`Wired.handle_of`), event by event.

## What is here

* `Wired`, `Wired.machine` — a machine with a wiring in place of its timers and speakers, and what is
  seen of it.
* `Wired.callBack`, `Wired.handle`, `Wired.run` — one worker, one event, a list of events.
* `Plan.Fits` — a machine and the plan of a wiring; `Wired.handle_of` and `Wired.run_of` keep it, so
  that `Wired.run_new` has all runs.
* `Machine.roster` — all workers that a machine has created, and what they do.
-/

set_option autoImplicit false

namespace Chip8
namespace Wiring

/-! ## A wiring seen as timers and speakers -/

/-- A timer. -/
def timer (g : Wiring) (c : Clock) : Timer := ⟨g.read c.value, c.interval, g.worker c.worker⟩

/-- The speaker that a worker belongs to, if it does. -/
def Post.speaker? : Post → Option Speaker
  | ⟨worker, .poll _ sound, beeps⟩ => some ⟨worker, sound, beeps⟩
  | _ => none

/-- All speakers, the latest first. -/
def speakers (g : Wiring) : List Speaker := (g.posts.filterMap Post.speaker?).reverse

end Wiring

/-! ## Machines with a wiring -/

/-- The core and the other devices of a machine, with timers and speakers that are given by a
wiring. -/
structure Wired where
  core : Machine.Core
  keypad : Keypad
  dialect : Dialect
  random : RandomSource
  cycleDelay : Option Nat
  wiring : Wiring

/-- What the sound output is that an event attaches. -/
def Machine.Event.attached? : Machine.Event → Option Sound
  | .attach sound => some sound
  | _ => none

namespace Wired

open Machine (Event Answer)

/-- A machine, with its timers and speakers replaced by a wiring. -/
def of (m : Machine) (wiring : Wiring) : Wired :=
  ⟨m.core, m.keypad, m.dialect, m.random, m.cycleDelay, wiring⟩

/-- The machine as it is seen from outside. -/
def machine (w : Wired) : Machine where
  memory := w.core.memory
  v := w.core.v
  i := w.core.i
  pc := w.core.pc
  opcode := w.core.opcode
  screen := w.core.screen
  keypad := w.keypad
  delay := w.wiring.timer w.wiring.delay
  sound := w.wiring.timer w.wiring.sound
  speakers := w.wiring.speakers
  dialect := w.dialect
  random := w.random
  cycleDelay := w.cycleDelay

/-- What has become of the machine that was seen; of its timers, what they show. -/
def settle (w : Wired) (m : Machine) : Wired :=
  .of m <|
    (w.wiring.write w.wiring.delay.value m.delay.value).write w.wiring.sound.value m.sound.value

/-- Worker `k` calls back. -/
def callBack (w : Wired) (k : Nat) : Outcome Wired Answer :=
  ((w.wiring.callBack k).mapState fun wiring => { w with wiring }).mapResult fun _ => .ok none

/-- A machine after its first power on. -/
def new (dialect : Dialect) (random : RandomSource) (cycleDelay : Option Nat) : Wired :=
  .of (.new dialect random cycleDelay) Wiring.new.powerOn

/-- **What one event does.**  The callback of a timer or of a speaker is that of its worker; the
speakers follow the timers in the order of their creation. -/
def handle (w : Wired) : Event → Outcome Wired Answer
  | .reset => ⟨.of w.machine.reset w.wiring.powerOn, .ok none, []⟩
  | .attach sound => ⟨{ w with wiring := w.wiring.attach sound }, .ok none, []⟩
  | .tickDelay => w.callBack w.wiring.delay.worker
  | .tickSound => w.callBack w.wiring.sound.worker
  | .pollSpeaker age =>
    if age + 2 < w.wiring.posts.length then w.callBack (w.wiring.posts.length - 1 - age)
    else ⟨w, .ok none, []⟩
  | e => (w.machine.handle e).mapState w.settle

/-- What a list of events does. -/
def run (w : Wired) : List Event → Outcome Wired (List Answer)
  | [] => ⟨w, [], []⟩
  | e :: es =>
    let first := w.handle e
    let rest := first.state.run es
    ⟨rest.state, first.result :: rest.result, first.log ++ rest.log⟩

end Wired

/-! ## Machines that fit a plan -/

namespace Wiring.Plan

/-- The speakers of a plan. -/
def lineup : List (Sound × Nat) → List Speaker
  | [] => []
  | s :: older => ⟨.onDuty, s.1, s.2⟩ :: older.map fun s => ⟨Worker.onDuty.stop, s.1, s.2⟩

/-- **The timers and speakers of a machine are those of a plan.** -/
structure Fits (p : Plan) (m : Machine) : Prop where
  delay : m.delay = ⟨p.delay, Timer.standardInterval, .onDuty⟩
  sound : m.sound = ⟨p.sound, Timer.standardInterval, .onDuty⟩
  speakers : m.speakers = lineup p.speakers

variable {p : Plan} {m : Machine}

/-- A wiring shows the speakers of its plan. -/
theorem speakers_wiring (p : Plan) : p.wiring.speakers = lineup p.speakers := by
  obtain ⟨x, y, speakers⟩ := p
  have hstanding (older : List (Sound × Nat)) :
      ((standing older).filterMap Post.speaker?).reverse =
        older.map fun s => ⟨Worker.onDuty.stop, s.1, s.2⟩ := by
    induction older with
    | nil => rfl
    | cons s older ih =>
      rw [standing_cons, List.filterMap_append, List.reverse_append, ih]
      rfl
  cases speakers with
  | nil => rfl
  | cons s older =>
    change ((standing older ++ [post true s]).filterMap Post.speaker?).reverse = _
    rw [List.filterMap_append, List.reverse_append, hstanding]
    rfl

/-- It shows the workers of the timers on duty. -/
theorem timers_wiring (p : Plan) :
    p.wiring.timer p.wiring.delay = ⟨p.delay, Timer.standardInterval, .onDuty⟩ ∧
      p.wiring.timer p.wiring.sound = ⟨p.sound, Timer.standardInterval, .onDuty⟩ := by
  obtain ⟨x, y, speakers⟩ := p
  cases speakers <;> exact ⟨rfl, rfl⟩

/-- So a machine is seen again through the wiring that fits it. -/
theorem Fits.machine_of (h : p.Fits m) : (Wired.of m p.wiring).machine = m := by
  refine Machine.ext_parts rfl ?_
  rw [Machine.devices, Machine.devices, h.delay, h.sound, h.speakers]
  simp only [Wired.machine, Wired.of, speakers_wiring, timers_wiring]

/-- The workers of such a machine are in order. -/
theorem Fits.staffed (h : p.Fits m) : m.Staffed := by
  have hspeakers : (∀ s ∈ m.speakers.head?, s.worker = .onDuty) ∧
      ∀ s ∈ m.speakers.tail, s.worker.alive = false := by
    rw [h.speakers]
    cases p.speakers with
    | nil => exact ⟨nofun, nofun⟩
    | cons s older =>
      refine ⟨fun t ht => Option.some.inj ht ▸ rfl, fun t ht => ?_⟩
      obtain ⟨q, -, rfl⟩ := List.mem_map.1 ht
      rfl
  exact ⟨h.delay ▸ ⟨rfl, rfl⟩, h.sound ▸ ⟨rfl, rfl⟩, hspeakers.1, hspeakers.2⟩

/-- A machine whose workers are in order has a plan. -/
theorem fits_of_staffed (hm : m.Staffed) {speakers : List (Sound × Nat)}
    (hspeakers : m.speakers = lineup speakers) :
    Fits ⟨m.delay.value, m.sound.value, speakers⟩ m where
  delay := hm.delay.eq_of_value ⟨rfl, rfl⟩ rfl
  sound := hm.sound.eq_of_value ⟨rfl, rfl⟩ rfl
  speakers := hspeakers

theorem fits_new (dialect : Dialect) (random : RandomSource) (cycleDelay : Option Nat) :
    Fits ⟨0, 0, []⟩ (.new dialect random cycleDelay) :=
  fits_of_staffed (Machine.staffed_new dialect random cycleDelay) rfl

/-- The workers of a machine are those of its wiring. -/
theorem Fits.workers (h : p.Fits m) : m.workers = p.wiring.posts.map Post.worker := by
  obtain ⟨x, y, speakers⟩ := p
  rw [Machine.workers, h.delay, h.sound, h.speakers]
  cases speakers with
  | nil => rfl
  | cons s older =>
    have hformer : (older.map (post false)).reverse.map Post.worker =
        (older.map fun s => Speaker.mk Worker.onDuty.stop s.1 s.2).reverse.map Speaker.worker := by
      rw [List.map_reverse, List.map_reverse, List.map_map, List.map_map]
      rfl
    change _ = (standing older ++ [post true s]).map Post.worker
    rw [lineup, List.reverse_cons, List.map_append, ← hformer, List.map_append, standing,
      List.map_append]
    rfl

/-- The attached speaker polls. -/
theorem Fits.pollSpeaker_attached {x y : UInt8} {s : Sound × Nat} {older : List (Sound × Nat)}
    (h : Fits ⟨x, y, s :: older⟩ m) :
    let polled := (Speaker.mk .onDuty s.1 s.2).poll y
    let speakers := (s.1, polled.state.beeps) :: older
    m.pollSpeaker 0 =
      ⟨{ m with
          speakers := lineup speakers
          sound := ⟨polled.result, Timer.standardInterval, .onDuty⟩ }, (), polled.log⟩ := by
  intro polled speakers
  have hstate : polled.state = ⟨.onDuty, s.1, polled.state.beeps⟩ := by
    rw [show polled = (Speaker.mk .onDuty s.1 s.2).poll y from rfl, Speaker.poll_of_alive rfl]
    split <;> rfl
  have hspeakers : lineup speakers =
      polled.state :: older.map fun s => ⟨Worker.onDuty.stop, s.1, s.2⟩ :=
    congrArg (· :: _) hstate.symm
  rw [Machine.pollSpeaker, h.speakers, h.sound, hspeakers]
  rfl

end Wiring.Plan

/-! ## Events -/

namespace Wired

open Wiring (Plan)
open Machine (Event)

variable {m : Machine} {p : Plan}

/-- The callback of a worker leaves everything but the wiring alone. -/
theorem callBack_of {g : Wiring} {k : Nat} {o : Outcome Wiring Unit} (h : g.callBack k = o) :
    (of m g).callBack k = ⟨of m o.state, .ok none, o.log⟩ := by
  rw [← h]
  rfl

/-- **The callback of a speaker is that of its worker.** -/
theorem handle_of_pollSpeaker (h : p.Fits m) (age : Nat) :
    ∃ q : Plan, (of m p.wiring).handle (.pollSpeaker age) =
        (m.handle (.pollSpeaker age)).mapState (of · q.wiring) ∧
      q.Fits (m.handle (.pollSpeaker age)).state ∧
      q.speakers.map Prod.fst = p.speakers.map Prod.fst := by
  obtain ⟨x, y, speakers⟩ := p
  have hlength : (of m (Plan.wiring ⟨x, y, speakers⟩)).wiring.posts.length = speakers.length + 2 :=
    Plan.length_posts speakers
  cases speakers with
  | nil =>
    refine ⟨⟨x, y, []⟩, ?_, ?_, rfl⟩
    · rw [handle, hlength, if_neg (by simp), Machine.handle, Machine.pollSpeaker_nil h.speakers]
      rfl
    · rw [Machine.handle, Machine.pollSpeaker_nil h.speakers]
      exact h
  | cons s older =>
    cases age with
    | succ age =>
      refine ⟨⟨x, y, s :: older⟩, ?_, ?_, rfl⟩
      · rw [Machine.handle, h.staffed.pollSpeaker_former, handle, hlength, List.length_cons]
        split
        next hage =>
          have hformer : (Plan.wiring ⟨x, y, s :: older⟩).speaker ≠
              some (older.length + 1 + 2 - 1 - (age + 1)) := by
            intro hspeaker
            have hnumber := Option.some.inj hspeaker
            omega
          exact callBack_of (Plan.callBack_former (by omega) hformer)
        next => rfl
      · rw [Machine.handle, h.staffed.pollSpeaker_former]
        exact h
    | zero =>
      let polled := (Speaker.mk .onDuty s.1 s.2).poll y
      have hpoll := h.pollSpeaker_attached
      refine ⟨⟨x, polled.result, (s.1, polled.state.beeps) :: older⟩, ?_, ?_, rfl⟩
      · rw [handle, hlength, List.length_cons, if_pos (by omega), Machine.handle, hpoll]
        exact callBack_of Plan.callBack_attached
      · rw [Machine.handle, hpoll]
        exact ⟨h.delay, rfl, rfl⟩

/-- **Every event does to a wired machine what it does to the machine**, and the wiring stays in
step. -/
theorem handle_of (h : p.Fits m) (e : Event) :
    ∃ q : Plan, (of m p.wiring).handle e = (m.handle e).mapState (of · q.wiring) ∧
      q.Fits (m.handle e).state ∧
      q.speakers.map Prod.fst = e.attached?.toList ++ p.speakers.map Prod.fst := by
  have hmachine := h.machine_of
  have hsettle (hspeakers : (m.handle e).state.speakers = m.speakers) :=
    Plan.fits_of_staffed (h.staffed.handle e) (hspeakers.trans h.speakers)
  cases e with
  | load | setKey | setKeys =>
    refine ⟨_, ?_, hsettle rfl, rfl⟩
    rw [handle, hmachine]
    · rfl
    all_goals nofun
  | cycle =>
    refine ⟨_, ?_, hsettle m.speakers_cycle, rfl⟩
    rw [handle, hmachine]
    · rfl
    all_goals nofun
  | reset =>
    have hspeakers : m.reset.speakers = m.speakers := by simp only [Machine.reset]
    refine ⟨{ p with delay := 0, sound := 0 }, ?_, hsettle hspeakers, rfl⟩
    rw [handle, hmachine, show (of m p.wiring).wiring = p.wiring from rfl, Plan.powerOn_wiring]
    rfl
  | attach sound =>
    refine ⟨{ p with speakers := (sound, 0) :: p.speakers }, ?_, ?_, rfl⟩
    · rw [handle, show (of m p.wiring).wiring = p.wiring from rfl, Plan.attach_wiring]
      rfl
    · refine ⟨h.delay, h.sound, ?_⟩
      change (m.attach sound).speakers = _
      rw [Machine.attach, h.speakers]
      cases p.speakers <;> rfl
  | tickDelay =>
    refine ⟨{ p with delay := countDown p.delay }, ?_, ⟨?_, h.sound, h.speakers⟩, rfl⟩
    · exact callBack_of Plan.callBack_delay
    · change m.delay.tick = _
      rw [h.delay]
      rfl
  | tickSound =>
    refine ⟨{ p with sound := countDown p.sound }, ?_, ⟨h.delay, ?_, h.speakers⟩, rfl⟩
    · exact callBack_of Plan.callBack_sound
    · change m.sound.tick = _
      rw [h.sound]
      rfl
  | pollSpeaker age => exact handle_of_pollSpeaker h age

/-- So does every run. -/
theorem run_of (h : p.Fits m) (es : List Event) :
    ∃ q : Plan, (of m p.wiring).run es = (m.run es).mapState (of · q.wiring) ∧
      q.Fits (m.run es).state ∧
      q.speakers.map Prod.fst =
        (es.filterMap Event.attached?).reverse ++ p.speakers.map Prod.fst := by
  induction es generalizing m p with
  | nil => exact ⟨p, rfl, h, rfl⟩
  | cons e es ih =>
    obtain ⟨q, hstate, hq, hsounds⟩ := handle_of h e
    obtain ⟨r, hrest, hr, hall⟩ := ih hq
    refine ⟨r, ?_, hr, ?_⟩
    · rw [run, hstate]
      simp only [Outcome.mapState, hrest]
      rfl
    · rw [hall, hsounds, List.filterMap_cons]
      cases e.attached? with
      | none => rfl
      | some sound => simp

/-- **A wired machine does what the machine does**, from the first power on. -/
theorem run_new (dialect : Dialect) (random : RandomSource) (cycleDelay : Option Nat)
    (es : List Event) :
    let o := (Machine.new dialect random cycleDelay).run es
    ∃ p : Plan, (new dialect random cycleDelay).run es = o.mapState (of · p.wiring) ∧
      p.Fits o.state ∧ p.speakers.map Prod.fst = (es.filterMap Event.attached?).reverse := by
  obtain ⟨p, hrun, hfits, hsounds⟩ := run_of (Plan.fits_new dialect random cycleDelay) es
  rw [new, Plan.powerOn_new]
  exact ⟨p, hrun, hfits, hsounds.trans (List.append_nil _)⟩

end Wired

/-! ## The roster -/

namespace Machine

open Wiring (Plan Post)

/-- **The roster of a machine's workers.**  Seen as workers that act on shared values by callbacks of
their own, a machine does the same, answers the same and makes the same records, whatever happens to
it.  It has created two workers and another one for each sound output that was attached.  Those of
the timers were started once and run, and each counts the value of its own timer; of the others, each
was started once on the value of the sound timer, and only the latest runs.  So a callback of a
timer's worker takes one from that timer, unless it is zero, and does nothing else; the attached
speaker takes what the sound timer shows, and a worker of any other speaker does nothing. -/
theorem roster (dialect : Dialect) (random : RandomSource) (cycleDelay : Option Nat)
    (es : List Event) :
    let o := (new dialect random cycleDelay).run es
    let wired := (Wired.new dialect random cycleDelay).run es
    let w := wired.state
    let g := w.wiring
    let sounds := es.filterMap Event.attached?
    wired.mapState Wired.machine = o ∧
      o.state.workers = g.posts.map Post.worker ∧
      g.posts.length = 2 + sounds.length ∧
      g.delay.worker ≠ g.sound.worker ∧
      g.delay.value ≠ g.sound.value ∧
      g.posts[g.delay.worker]? = some ⟨⟨true, 16666, 1⟩, .count g.delay.value, 0⟩ ∧
      g.posts[g.sound.worker]? = some ⟨⟨true, 16666, 1⟩, .count g.sound.value, 0⟩ ∧
      (∀ k sound, sounds[k]? = some sound → ∃ beeps, g.posts[2 + k]? =
        some ⟨⟨k + 1 = sounds.length, 16666, 1⟩, .poll g.sound.value sound, beeps⟩) ∧
      g.speaker = (if sounds = [] then none else some (sounds.length + 1)) ∧
      (∃ less : UInt8, less.toNat = (g.read g.delay.value).toNat - 1 ∧
        w.callBack g.delay.worker =
          ⟨{ w with wiring := g.write g.delay.value less }, .ok none, []⟩) ∧
      (∃ less : UInt8, less.toNat = (g.read g.sound.value).toNat - 1 ∧
        w.callBack g.sound.worker =
          ⟨{ w with wiring := g.write g.sound.value less }, .ok none, []⟩) ∧
      (∀ k, g.speaker = some k →
        (w.callBack k).state.wiring.values = g.values.set g.sound.value 0) ∧
      ∀ k, 2 ≤ k → g.speaker ≠ some k → w.callBack k = ⟨w, .ok none, []⟩ := by
  intro o wired w g sounds
  obtain ⟨p, ho, hfits, hsounds⟩ := Wired.run_new dialect random cycleDelay es
  have hw : w = .of o.state p.wiring := congrArg Outcome.state ho
  have hg : g = p.wiring := congrArg Wired.wiring hw
  have hsounds' : sounds = p.speakers.reverse.map Prod.fst := by
    rw [List.map_reverse, hsounds, List.reverse_reverse]
  have hlength : p.speakers.length = sounds.length := by
    rw [hsounds', List.length_map, List.length_reverse]
  refine ⟨?same, ?workers, ?length, hg ▸ nofun, hg ▸ nofun, ?delay, ?sound, ?speakers, ?attached,
    ?tickDelay, ?tickSound, ?poll, ?former⟩
  case same =>
    refine (congrArg (Outcome.mapState · Wired.machine) ho).trans ?_
    exact congrArg (fun m => Outcome.mk m _ _) hfits.machine_of
  case workers => rw [hg]; exact hfits.workers
  case length => rw [hg, ← hlength, Nat.add_comm]; exact Plan.length_posts p.speakers
  case delay => rw [hg]; exact (Plan.posts_timers p.speakers).1
  case sound => rw [hg]; exact (Plan.posts_timers p.speakers).2
  case speakers =>
    intro k sound hk
    rw [hsounds', List.getElem?_map, Option.map_eq_some_iff] at hk
    obtain ⟨s, hs, rfl⟩ := hk
    rw [hg, ← hlength]
    exact ⟨s.2, Plan.posts_speaker hs⟩
  case attached =>
    rw [hg]
    cases hspeakers : p.speakers with
    | nil =>
      rw [if_pos (List.eq_nil_of_length_eq_zero (hlength ▸ hspeakers ▸ rfl)), Plan.wiring, hspeakers]
    | cons s older =>
      have hne : sounds ≠ [] := by
        rw [hsounds', hspeakers]
        simp
      rw [if_neg hne, ← hlength, hspeakers, Plan.wiring, hspeakers]
      rfl
  case tickDelay =>
    rw [hw, hg]
    exact ⟨countDown _, toNat_countDown _, Wired.callBack_of Plan.callBack_delay⟩
  case tickSound =>
    rw [hw, hg]
    exact ⟨countDown _, toNat_countDown _, Wired.callBack_of Plan.callBack_sound⟩
  case poll =>
    intro k hspeaker
    rw [hg] at hspeaker
    rw [hw, hg]
    exact Plan.values_callBack hspeaker
  case former =>
    intro k hk hspeaker
    rw [hg] at hspeaker
    rw [hw]
    exact Wired.callBack_of (Plan.callBack_former hk hspeaker)

end Machine
end Chip8
