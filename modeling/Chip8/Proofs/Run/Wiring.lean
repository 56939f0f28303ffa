import Chip8.Proofs.Lists
import Chip8.Proofs.Run.Workers
import Chip8.Timer.Wiring

/-!
# The wirings of a machine

However long a machine runs, its wiring keeps one form.  The workers of the two timers come first,
each counting the value of its own timer; then come those of the speakers in the order of their
attachment, all polling the value of the sound timer, and only the last of them runs.  So a wiring is
described by what the timers show and by a list of speakers (`Plan`), and everything that a machine
does with its workers, or a worker does, is an operation on that description.

## What is here

* `Wiring.Plan`, `Plan.wiring` — the description and the wiring that it stands for.
* `Plan.posts_timers`, `Plan.posts_speaker` — the workers one by one.
* `Plan.powerOn_wiring`, `Plan.attach_wiring` — power on and a new speaker.
* `Plan.callBack_delay`, `Plan.callBack_sound`, `Plan.callBack_attached`, `Plan.callBack_former` — the
  callback of each worker.
-/

set_option autoImplicit false

namespace Chip8
namespace Wiring

/-! ## The wirings of a machine -/

/-- All that ever changes in the wiring of a machine: what the timers show, and for each speaker
where it beeps and how often it has, the latest first. -/
structure Plan where
  delay : UInt8
  sound : UInt8
  speakers : List (Sound × Nat)

namespace Plan

/-- The worker of a speaker. -/
def post (alive : Bool) (s : Sound × Nat) : Post :=
  ⟨⟨alive, Timer.standardInterval, 1⟩, .poll 1 s.1, s.2⟩

/-- The workers of the timers, and those of the speakers that were replaced. -/
def standing (older : List (Sound × Nat)) : List Post :=
  [⟨.onDuty, .count 0, 0⟩, ⟨.onDuty, .count 1, 0⟩] ++ (older.map (post false)).reverse

/-- All workers: only the latest speaker runs. -/
def posts : List (Sound × Nat) → List Post
  | [] => standing []
  | s :: older => standing older ++ [post true s]

/-- The wiring itself. -/
def wiring (p : Plan) : Wiring where
  values := [p.delay, p.sound]
  posts := posts p.speakers
  delay := ⟨Timer.standardInterval, 0, 0⟩
  sound := ⟨Timer.standardInterval, 1, 1⟩
  speaker :=
    match p.speakers with
    | [] => none
    | _ :: older => some (older.length + 2)

variable {p : Plan} {s : Sound × Nat} {older : List (Sound × Nat)}

theorem length_standing (older : List (Sound × Nat)) :
    (standing older).length = older.length + 2 := by
  simp [standing]

theorem standing_cons : standing (s :: older) = standing older ++ [post false s] := by
  simp [standing]

theorem length_posts (speakers : List (Sound × Nat)) :
    (posts speakers).length = speakers.length + 2 := by
  cases speakers with
  | nil => rfl
  | cons s older => rw [posts, List.length_append, length_standing]; rfl

/-- The workers of the timers come first. -/
theorem posts_timers (speakers : List (Sound × Nat)) :
    (posts speakers)[0]? = some ⟨.onDuty, .count 0, 0⟩ ∧
      (posts speakers)[1]? = some ⟨.onDuty, .count 1, 0⟩ := by
  cases speakers <;> exact ⟨rfl, rfl⟩

/-- The workers of the speakers, in the order of their creation. -/
theorem posts_speaker {speakers : List (Sound × Nat)} {k : Nat} {s : Sound × Nat}
    (h : speakers.reverse[k]? = some s) :
    (posts speakers)[2 + k]? = some (post (decide (k + 1 = speakers.length)) s) := by
  cases speakers with
  | nil => cases h
  | cons latest older =>
    have hk : k < older.length + 1 := by
      have hlt := (List.getElem?_eq_some_iff.1 h).1
      rwa [List.length_reverse] at hlt
    rw [List.reverse_cons] at h
    rcases Nat.lt_succ_iff_lt_or_eq.1 hk with hlt | rfl
    · have hne : ¬ k + 1 = (latest :: older).length := by
        rw [List.length_cons]
        omega
      rw [List.getElem?_append_left (by rwa [List.length_reverse])] at h
      rw [posts, List.getElem?_append_left (by rw [length_standing]; omega), standing,
        List.getElem?_append_right (Nat.le_add_right 2 k), decide_eq_false hne, ← List.map_reverse]
      change (older.reverse.map (post false))[2 + k - 2]? = _
      rw [Nat.add_sub_cancel_left, List.getElem?_map, h]
      rfl
    · rw [← List.length_reverse, List.getElem?_concat_length] at h
      obtain rfl := Option.some.inj h
      rw [posts, Nat.add_comm, ← length_standing, List.getElem?_concat_length,
        decide_eq_true (List.length_cons).symm]

/-! ## What a machine does with its workers -/

theorem startClock_of_alive {g : Wiring} {c : Clock} (h : (g.worker c.worker).alive = true) :
    g.startClock c = g :=
  if_pos h

/-- **Power on** finds the workers of the timers running. -/
theorem powerOn_wiring : p.wiring.powerOn = { p with delay := 0, sound := 0 }.wiring := by
  obtain ⟨x, y, speakers⟩ := p
  have hdelay : (wiring ⟨0, 0, speakers⟩).startClock ⟨Timer.standardInterval, 0, 0⟩ =
      wiring ⟨0, 0, speakers⟩ :=
    startClock_of_alive (by cases speakers <;> rfl)
  have hsound : (wiring ⟨0, 0, speakers⟩).startClock ⟨Timer.standardInterval, 1, 1⟩ =
      wiring ⟨0, 0, speakers⟩ :=
    startClock_of_alive (by cases speakers <;> rfl)
  change ((wiring ⟨0, 0, speakers⟩).startClock ⟨Timer.standardInterval, 0, 0⟩).startClock
    ⟨Timer.standardInterval, 1, 1⟩ = _
  rw [hdelay, hsound]

/-- The first one starts them. -/
theorem powerOn_new : new.powerOn = wiring ⟨0, 0, []⟩ := rfl

/-- **A speaker is attached**, and the one before it is stopped. -/
theorem attach_wiring (sound : Sound) :
    p.wiring.attach sound = { p with speakers := (sound, 0) :: p.speakers }.wiring := by
  obtain ⟨x, y, speakers⟩ := p
  cases speakers with
  | nil => rfl
  | cons s older =>
    have hhire : (posts (s :: older) ++ [Post.mk .idle .nothing 0]).modify (posts (s :: older)).length
          (fun q => ⟨q.worker.start Timer.standardInterval, .poll 1 sound, q.beeps⟩) =
        standing older ++ [post true s, post true (sound, 0)] := by
      rw [Lists.modify_append_cons, posts, List.append_assoc]
      rfl
    have hstop : (standing older ++ [post true s, post true (sound, 0)]).modify (older.length + 2)
        (fun q => { q with worker := q.worker.stop }) =
          standing (s :: older) ++ [post true (sound, 0)] := by
      rw [← length_standing, Lists.modify_append_cons, standing_cons, List.append_assoc]
      rfl
    simp only [attach, hire, start, stop, wiring]
    rw [hhire, hstop, length_posts]
    rfl

/-! ## Callbacks -/

/-- A worker that is not there, or does not run, does nothing. -/
theorem callBack_of_dead {g : Wiring} {k : Nat}
    (h : ∀ q, g.posts[k]? = some q → q.worker.alive = false) : g.callBack k = ⟨g, (), []⟩ := by
  rw [callBack]
  split
  · rfl
  next q hq => rw [h q hq]; rfl

/-- A worker that runs polls what it was started for. -/
theorem callBack_of_poll {g : Wiring} {k c : Nat} {w : Worker} {sound : Sound} {b : Nat}
    (h : g.posts[k]? = some ⟨w, .poll c sound, b⟩) (halive : w.alive = true) :
    let polled := (Speaker.mk w sound b).poll (g.read c)
    g.callBack k =
      ⟨write { g with posts := g.posts.set k ⟨w, .poll c sound, polled.state.beeps⟩ } c polled.result,
        (), polled.log⟩ := by
  rw [callBack, h]
  exact if_pos halive

theorem callBack_delay :
    p.wiring.callBack 0 = ⟨{ p with delay := countDown p.delay }.wiring, (), []⟩ := by
  obtain ⟨x, y, speakers⟩ := p
  cases speakers <;> rfl

theorem callBack_sound :
    p.wiring.callBack 1 = ⟨{ p with sound := countDown p.sound }.wiring, (), []⟩ := by
  obtain ⟨x, y, speakers⟩ := p
  cases speakers <;> rfl

/-- A speaker that was replaced is out of order. -/
theorem callBack_former {k : Nat} (hk : 2 ≤ k) (hspeaker : p.wiring.speaker ≠ some k) :
    p.wiring.callBack k = ⟨p.wiring, (), []⟩ := by
  refine callBack_of_dead fun q hq => ?_
  have hstanding (older : List (Sound × Nat)) (hq : (standing older)[k]? = some q) :
      q.worker.alive = false := by
    rw [standing, List.getElem?_append_right hk] at hq
    have hmem := List.mem_of_getElem? hq
    rw [List.mem_reverse, List.mem_map] at hmem
    obtain ⟨s, -, rfl⟩ := hmem
    rfl
  obtain ⟨x, y, speakers⟩ := p
  cases speakers with
  | nil => exact hstanding [] hq
  | cons s older =>
    have hne : k ≠ older.length + 2 := fun h => hspeaker (h ▸ rfl)
    change (standing older ++ [post true s])[k]? = some q at hq
    rcases Nat.lt_or_ge k (standing older).length with hlt | hge
    · rw [List.getElem?_append_left hlt] at hq
      exact hstanding older hq
    · rw [length_standing] at hge
      rw [List.getElem?_eq_none] at hq
      · cases hq
      · rw [List.length_append, length_standing, List.length_singleton]
        omega

/-- **The attached speaker polls the sound timer.** -/
theorem callBack_attached {x y : UInt8} :
    let polled := (Speaker.mk .onDuty s.1 s.2).poll y
    (wiring ⟨x, y, s :: older⟩).callBack (older.length + 2) =
      ⟨wiring ⟨x, polled.result, (s.1, polled.state.beeps) :: older⟩, (), polled.log⟩ := by
  have hpost : (wiring ⟨x, y, s :: older⟩).posts[older.length + 2]? = some (post true s) := by
    rw [← length_standing]
    exact List.getElem?_concat_length
  have hset (q : Post) :
      (standing older ++ [post true s]).set (older.length + 2) q = standing older ++ [q] := by
    rw [← length_standing, List.set_append_right _ _ (Nat.le_refl _), Nat.sub_self]
    rfl
  rw [callBack_of_poll hpost rfl]
  exact congrArg (fun l => Outcome.mk (write { wiring ⟨x, y, s :: older⟩ with posts := l } 1 _) () _)
    (hset _)

/-- It takes what that timer shows. -/
theorem values_callBack {k : Nat} (h : p.wiring.speaker = some k) :
    (p.wiring.callBack k).state.values = p.wiring.values.set p.wiring.sound.value 0 := by
  obtain ⟨x, y, speakers⟩ := p
  cases speakers with
  | nil => cases h
  | cons s older =>
    obtain rfl := Option.some.inj h
    have hresult : ((Speaker.mk .onDuty s.1 s.2).poll y).result = 0 := by
      rw [Speaker.poll_of_alive rfl]
      split <;> rfl
    rw [callBack_attached, hresult]
    rfl

end Plan
end Wiring
end Chip8
