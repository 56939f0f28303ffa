import Chip8.Proofs.Run.View

/-!
# A program cannot hear itself

The sound timer, the speakers that poll it and the sound outputs behind them are there for the host.
A program can set the sound timer, but nothing it does depends on what became of that: the ticks of
the timer, the polls of the speakers and the outputs that are attached may come when they like, as
often as they like, or not at all.

The proof goes by leaving such events out.  `SameView.run_filter` compares a run with the same run
without them, on a machine that looks the same: the program gets the same answers, and it sees the
same at the end.  Two runs that differ in such events only are the same run once these are left out.

## What is here

* `Machine.forProgram`, `Machine.programAnswers` — the events that are left, and the answers to them.
* `SameView.run_filter` — a run with and without the others.
* `Machine.sound_invisible` — two runs that differ in the others.
-/

set_option autoImplicit false

namespace Chip8
namespace Machine

/-- The events that do not only concern the sound. -/
def forProgram (es : List Event) : List Event := es.filter fun e => !e.forSound

/-- The answers to the events that do not only concern the sound, in the course of a run. -/
def programAnswers (m : Machine) (es : List Event) : List Answer :=
  ((es.zip (m.run es).result).filter fun p => !p.1.forSound).map Prod.snd

section cons

variable (m : Machine) {e : Event} (es : List Event)

theorem forProgram_cons_of_forSound (he : e.forSound = true) :
    forProgram (e :: es) = forProgram es := by
  simp [forProgram, he]

theorem forProgram_cons (he : e.forSound = false) :
    forProgram (e :: es) = e :: forProgram es := by
  simp [forProgram, he]

theorem programAnswers_cons_of_forSound (he : e.forSound = true) :
    m.programAnswers (e :: es) = (m.handle e).state.programAnswers es := by
  simp [programAnswers, run, he]

theorem programAnswers_cons (he : e.forSound = false) :
    m.programAnswers (e :: es) =
      (m.handle e).result :: (m.handle e).state.programAnswers es := by
  simp [programAnswers, run, he]

end cons

variable {m n : Machine}

/-- **Leaving the sound out** of a run changes no other answer, and nothing that the program can see
at the end. -/
theorem SameView.run_filter (h : m.SameView n) (es : List Event) :
    m.programAnswers es = (n.run (forProgram es)).result ∧
      (m.run es).state.SameView (n.run (forProgram es)).state := by
  induction es generalizing m n with
  | nil => exact ⟨rfl, h⟩
  | cons e es ih =>
    cases he : e.forSound with
    | true =>
      rw [programAnswers_cons_of_forSound m es he, forProgram_cons_of_forSound es he]
      exact ih (h.of_forSound he)
    | false =>
      obtain ⟨hstate, hresult, -⟩ := h.handle he
      obtain ⟨hanswers, hview⟩ := ih hstate
      rw [programAnswers_cons m es he, forProgram_cons es he, hresult, hanswers]
      exact ⟨rfl, hview⟩

/-- Runs that differ in the sound only end in machines that look the same. -/
theorem SameView.run (h : m.SameView n) {es fs : List Event}
    (hsame : forProgram es = forProgram fs) :
    m.programAnswers es = n.programAnswers fs ∧ (m.run es).state.SameView (n.run fs).state := by
  obtain ⟨hm, hmview⟩ := h.run_filter es
  obtain ⟨hn, hnview⟩ := (SameView.refl n).run_filter fs
  rw [hsame] at hm hmview
  exact ⟨hm.trans hn.symm, hmview.trans hnview.symm⟩

/-- Beginnings of two lists are the same up to the sound, if they are as long up to the sound. -/
theorem forProgram_eq_of_isPrefix {ds gs es fs : List Event} (hsame : forProgram es = forProgram fs)
    (hds : ds <+: es) (hgs : gs <+: fs)
    (hlength : (forProgram ds).length = (forProgram gs).length) :
    forProgram ds = forProgram gs := by
  have hd : forProgram ds <+: forProgram es := hds.filter _
  have hg : forProgram gs <+: forProgram es := hsame ▸ hgs.filter _
  exact (List.prefix_of_prefix_length_le hd hg (Nat.le_of_eq hlength)).eq_of_length hlength

/-- **A program cannot hear itself.**  Take two machines that look the same, so that they agree on
all but the sound timer, the speakers and the cycle delay, and two lists of events that are the same
but for those that only concern the sound.  All other events get the same answers on both machines,
the cycles among them; and whenever both have come equally far through these events, they agree on
the core, the keys, the delay timer and the random bytes that are still to come. -/
theorem sound_invisible (h : m.SameView n) {es fs : List Event}
    (hsame : forProgram es = forProgram fs) :
    m.programAnswers es = n.programAnswers fs ∧
      ∀ ds gs, ds <+: es → gs <+: fs → (forProgram ds).length = (forProgram gs).length →
        (m.run ds).state.SameView (n.run gs).state := by
  refine ⟨(h.run hsame).1, fun ds gs hds hgs hlength => ?_⟩
  exact (h.run (forProgram_eq_of_isPrefix hsame hds hgs hlength)).2

/-- A machine whose program sets the sound timer and then reads the delay timer. -/
@[irreducible]
def beeping : Machine :=
  ((new default default none).load [0x61, 0x05, 0xF1, 0x18, 0xF2, 0x07]).state

/-- The same machine with a speaker that is about to beep, for a host that waits after a cycle. -/
@[irreducible]
def loud : Machine :=
  { beeping.attach .host with sound := beeping.sound.set 9, cycleDelay := some 100 }

theorem sound_invisible_loud :
    let es := [Event.cycle, .cycle, .tickSound, .tickDelay, .cycle]
    let fs := [Event.pollSpeaker 0, .cycle, .cycle, .pollSpeaker 0, .tickDelay, .attach .silent,
      .cycle, .tickSound]
    beeping.SameView loud ∧ forProgram es = forProgram fs ∧
      beeping.programAnswers es = loud.programAnswers fs ∧
      (beeping.run [.cycle, .cycle, .tickSound]).state.SameView
        (loud.run [.pollSpeaker 0, .cycle, .cycle]).state ∧
      (loud.run fs).state.beeps = 2 := by
  intro es fs
  have hview : beeping.SameView loud := by
    rw [loud]
    exact ⟨rfl, rfl, rfl, rfl, rfl⟩
  have hsame : forProgram es = forProgram fs := rfl
  obtain ⟨hanswers, hprefix⟩ := sound_invisible hview hsame
  refine ⟨hview, hsame, hanswers, ?_, by decide +kernel⟩
  exact hprefix _ _ ⟨[.tickDelay, .cycle], rfl⟩
    ⟨[.pollSpeaker 0, .tickDelay, .attach .silent, .cycle, .tickSound], rfl⟩ rfl

end Machine
end Chip8
