import Chip8.Proofs.Cycle.Frame
import Chip8.Proofs.Runner.Replay

/-!
# What the host sees

A runner shows the screen after every cycle that asks for a redraw.  Two instructions change the
screen, and both ask for one when they succeed, so the last frame is the screen.

There is one gap.  A sprite that begins in memory and runs over its end is drawn as far as it goes,
and then the cycle fails.  It asks for nothing, so the host is not shown the rows that were drawn,
and as the failure halts the runner they are never shown.  Such a cycle *tears* the screen.  It is
the only way in which the screen gets ahead of the frames (`Runner.screen_eq_last_frame`), and it
does happen (`Runner.screen_ahead_of_frames`).

## What is here

* `Machine.redraw_or_screen_cycle` — a cycle that succeeds asks for a redraw or keeps the screen.
* `Machine.Tears`, `Machine.screen_cycle_of_error` — a cycle that fails keeps the screen or tears it.
* `Runner.Call.KeepsScreen` — the calls with which a host does not change the screen itself.
* `Runner.screen_run` — the screen and the frames of any stretch of a run.
* `Runner.screen_eq_last_frame` — the same for a runner that starts with a dark screen.
-/

set_option autoImplicit false

namespace Chip8
namespace Machine

/-! ## Cycles that succeed -/

variable {m : Machine} {i : Instruction}

/-- An instruction that succeeds asks for a redraw or keeps the screen. -/
theorem redraw_or_screen_execute {v : Step × Signal} (h : (m.execute i).result = .ok v) :
    v.2 = .redraw ∨ (m.execute i).state.screen = m.screen := by
  cases i with
  | clear =>
    cases h
    exact .inl rfl
  | draw x y n =>
    have hv : (Step.next, Signal.redraw) = v := eq_of_map_const_eq_ok h
    exact .inl (hv ▸ rfl)
  | _ => exact .inr (screen_execute not_false)

/-- **A cycle that succeeds asks for a redraw or keeps the screen.** -/
theorem redraw_or_screen_cycle {s : Signal} (h : m.cycle.result = .ok s) :
    s = .redraw ∨ m.cycle.state.screen = m.screen := by
  revert h
  refine cycle_cases (P := fun o => o.result = .ok s → s = .redraw ∨ o.state.screen = m.screen) m
    (fun _ _ h => ?unfetched) (fun _ _ _ h => ?undecoded) (fun w i _ _ h => ?performed)
  case unfetched => cases h
  case undecoded => cases h
  case performed =>
    rcases hresult : ((m.fetched w).execute i).result with f | ⟨step, s'⟩
    · rw [perform_of_error hresult] at h
      cases h
    · rw [perform_of_ok hresult] at h ⊢
      cases h
      exact redraw_or_screen_execute hresult

/-! ## Cycles that fail -/

/-- The next cycle tears the screen: its sprite begins in memory and runs over the end, and the rows
that are there turn the screen into `torn`. -/
def Tears (m : Machine) (torn : Screen) : Prop :=
  ∃ x y n, m.next? = some (.draw x y n) ∧ m.i.toNat < 4096 ∧ 4096 < m.i.toNat + n.toNat ∧
    torn = (m.screen.draw (m.v.get x).toNat (m.v.get y).toNat (m.memory.toList.drop m.i.toNat)).1

/-- **A cycle that fails keeps the screen or tears it.** -/
theorem screen_cycle_of_error {f : Fault} (h : m.cycle.result = .error f) :
    m.cycle.state.screen = m.screen ∨ m.Tears m.cycle.state.screen := by
  obtain ⟨-, hstate⟩ | ⟨i, hnext, -, hwreck⟩ := failed_cases h
  · rw [hstate]
    exact .inl rfl
  · revert hwreck
    generalize m.cycle.state = m'
    intro hwreck
    cases hwreck with
    | draw x y n hover =>
      have hi : (m.fetched m.opcodeAfter).i = m.i := rfl
      rw [hi] at hover
      rcases Nat.lt_or_ge m.i.toNat 4096 with hin | hout
      · refine .inr ⟨x, y, n, hnext, hin, hover.2, ?_⟩
        change (m.screen.plot _ _ (m.memory.readBlock m.i.toNat n.toNat).1).1 = _
        rw [Screen.plot_eq_draw, Memory.readBlock_fst_of_le _ (by omega)]
        rfl
      · refine .inl ?_
        change (m.screen.plot _ _ (m.memory.readBlock m.i.toNat n.toNat).1).1 = _
        rw [Memory.readBlock_fst_of_le _ (by omega), List.drop_eq_nil_of_le
          (by rwa [Memory.toList, Vector.length_toList])]
        rfl
    | ret | storeDecimal | storeRegisters | fillRegisters => exact .inl rfl

/-- A cycle that tears the screen fails at the first address behind memory. -/
theorem Tears.result {torn : Screen} (h : m.Tears torn) :
    m.cycle.result = .error (.addressOutOfBounds 4096 4096) := by
  obtain ⟨x, y, n, hnext, hin, hover, -⟩ := h
  rw [next?] at hnext
  split at hnext
  next hpc =>
    have hw : m.fetch = .ok (m.memory.word m.pc.toNat) := fetch_eq_ok_iff.2 ⟨by omega, rfl⟩
    have hfits := (Instruction.code_of_ofOpcode? hnext).1
    have hfault : (m.fetched (m.memory.word m.pc.toNat)).executeFault? (.draw x y n) =
        some (.addressOutOfBounds (max m.i.toNat 4096) 4096) := by
      rw [executeFault?, if_neg (by simp)]
      exact if_pos ⟨by simp only [Instruction.span]; omega, hover⟩
    rw [Nat.max_eq_right (Nat.le_of_lt hin)] at hfault
    rw [cycle_eq_perform hw hnext, ← faultOf?_eq_some_iff, faultOf?_perform,
      faultOf?_execute _ hfits, hfault]
  next => cases hnext

/-- **After a cycle the screen is the frame that was asked for**, or that of before if none was,
unless the cycle tore it. -/
theorem screen_cycle (m : Machine) :
    m.cycle.state.screen = (frameOf? m.cycle).getD m.screen ∨ m.Tears m.cycle.state.screen := by
  rcases h : m.cycle.result with f | s
  · rw [frameOf?, h]
    exact screen_cycle_of_error h
  · refine .inl ?_
    rw [frameOf?, h]
    rcases redraw_or_screen_cycle h with rfl | hkeep
    · rfl
    · cases s <;> first | exact hkeep | rfl

/-- Only a cycle and the power switch change the screen. -/
theorem screen_handle (m : Machine) {e : Event} (hreset : e ≠ .reset) (hcycle : e ≠ .cycle) :
    (m.handle e).state.screen = m.screen := by
  cases e with
  | reset => exact absurd rfl hreset
  | cycle => exact absurd rfl hcycle
  | pollSpeaker age => exact m.pollSpeaker_state (·.screen) age fun _ _ => rfl
  | load | setKey | setKeys | attach | tickDelay | tickSound => rfl

end Machine

namespace Runner

/-! ## Calls -/

/-- A call with which the host does not change the screen itself. -/
def Call.KeepsScreen : Call → Prop
  | .machine .reset => False
  | .machine .cycle => False
  | _ => True

variable {r : Runner}

/-- A call that runs no cycle and does not change the screen from outside keeps it. -/
theorem screen_handle {c : Call} (hc : c.KeepsScreen) (hmove : r.machine.ticked (r.move c) = []) :
    (r.handle c).state.machine.screen = r.machine.screen := by
  cases c with
  | tick =>
    by_cases hgrants : r.grants
    · rw [move, if_pos hgrants] at hmove
      cases hmove
    · change r.tick.state.machine.screen = _
      rw [tick_of_not_grants (Bool.eq_false_iff.mpr hgrants)]
  | machine e =>
    refine r.machine.screen_handle (fun h => ?_) (fun h => ?_)
    · rw [h] at hc
      exact hc
    · rw [h] at hc
      exact hc
  | _ => rfl

/-- A halted runner keeps the screen. -/
theorem screen_run_of_halted {f : Fault} (h : r.control.fault = some f) {cs : List Call}
    (hcs : ∀ c ∈ cs, c.KeepsScreen) : (r.run cs).state.machine.screen = r.machine.screen := by
  induction cs generalizing r with
  | nil => rfl
  | cons c cs ih =>
    have hnone := ticked_of_halted h [c]
    rw [ticked_cons, List.append_eq_nil_iff] at hnone
    have hfirst := screen_handle (hcs c List.mem_cons_self) hnone.1
    have hrest := ih (fault_run_of_halted h [c]) fun d hd => hcs d (List.mem_cons_of_mem c hd)
    exact hrest.trans hfirst

/-! ## Runs -/

/-- The screen that the host was shown last, in the course of some cycles; `before` if it was shown
none. -/
def lastShown (ran : List (Outcome Machine (Except Fault Signal))) (before : Screen) : Screen :=
  (ran.filterMap frameOf?).getLast?.getD before

theorem lastShown_cons (o : Outcome Machine (Except Fault Signal))
    (ran : List (Outcome Machine (Except Fault Signal))) (before : Screen) :
    lastShown (o :: ran) before = lastShown ran ((frameOf? o).getD before) := by
  rw [lastShown, lastShown, List.filterMap_cons]
  cases frameOf? o with
  | none => rfl
  | some frame => rw [List.getLast?_cons]; rfl

/-- The runner was halted by a cycle that tore the screen, which was `shown` before. -/
def HaltedTorn (r : Runner) (ran : List (Outcome Machine (Except Fault Signal))) (shown : Screen) :
    Prop :=
  r.control.fault = some (.addressOutOfBounds 4096 4096) ∧
    ∃ m : Machine, ran.getLast? = some m.cycle ∧ m.screen = shown ∧ m.Tears r.machine.screen

/-- After some cycles, which started with the screen `before`, the screen is what the host was shown
last, or the last of the cycles tore it. -/
def ShownOrTorn (r : Runner) (ran : List (Outcome Machine (Except Fault Signal)))
    (before : Screen) : Prop :=
  r.machine.screen = lastShown ran before ∨ r.HaltedTorn ran (lastShown ran before)

/-- A cycle whose frame the others start from can be put in front of them. -/
theorem ShownOrTorn.cons {o : Outcome Machine (Except Fault Signal)}
    {ran : List (Outcome Machine (Except Fault Signal))} {before : Screen}
    (h : r.ShownOrTorn ran ((frameOf? o).getD before)) : r.ShownOrTorn (o :: ran) before := by
  rw [ShownOrTorn, lastShown_cons]
  rcases h with hshown | ⟨hfault, m, hlast, hm⟩
  · exact .inl hshown
  · refine .inr ⟨hfault, m, ?_, hm⟩
    rw [List.getLast?_cons, hlast]
    rfl

/-- A call runs no cycle, or it is a tick that is granted one. -/
theorem ticked_move_or_grants (r : Runner) (c : Call) :
    r.machine.ticked (r.move c) = [] ∨ c = .tick ∧ r.grants = true := by
  cases c with
  | tick =>
    by_cases h : r.grants
    · exact .inr ⟨rfl, h⟩
    · rw [move, if_neg h]
      exact .inl rfl
  | _ => exact .inl rfl

/-- The cycles of a run that begins with a granted tick. -/
theorem ticked_tick (h : r.grants = true) (cs : List Call) :
    r.machine.ticked (r.moves (.tick :: cs)) =
      r.nextCycle :: (r.handle .tick).state.machine.ticked ((r.handle .tick).state.moves cs) := by
  rw [ticked_cons, move, if_pos h]
  rfl

/-- A granted tick leaves the machine to the rest of the run as its cycle left it. -/
theorem machine_tick (h : r.grants = true) :
    (r.handle .tick).state.machine = r.nextCycle.state := by
  change r.tick.state.machine = _
  rw [tick_of_grants h]

/-- A run that begins with a tick whose cycle tears the screen: the runner is halted, and nothing
after that changes the screen or shows it. -/
theorem shownOrTorn_of_tears (h : r.grants = true)
    (htears : (r.machine.setKeys r.console.keys).Tears r.nextCycle.state.screen) {cs : List Call}
    (hcs : ∀ c ∈ cs, c.KeepsScreen) :
    (r.run (.tick :: cs)).state.ShownOrTorn (r.machine.ticked (r.moves (.tick :: cs)))
      r.machine.screen := by
  have hfault : (r.handle .tick).state.control.fault = some (.addressOutOfBounds 4096 4096) := by
    change r.tick.state.control.fault = _
    rw [tick_of_grants h]
    exact faultOf?_eq_some_iff.2 htears.result
  have hnoframe : frameOf? r.nextCycle = none := by
    rw [frameOf?, nextCycle, htears.result]
  have hscreen : (r.run (.tick :: cs)).state.machine.screen = r.nextCycle.state.screen := by
    rw [← machine_tick h]
    exact screen_run_of_halted hfault hcs
  rw [ticked_tick h, ticked_of_halted hfault, ShownOrTorn, lastShown_cons, hnoframe]
  refine .inr ⟨fault_run_of_halted hfault cs, r.machine.setKeys r.console.keys, rfl, rfl, ?_⟩
  rw [hscreen]
  exact htears

/-- **After any stretch of a run the screen is what the host was shown last**, unless the runner was
halted by a cycle that tore it. -/
theorem screen_run (r : Runner) {cs : List Call} (hcs : ∀ c ∈ cs, c.KeepsScreen) :
    (r.run cs).state.ShownOrTorn (r.machine.ticked (r.moves cs)) r.machine.screen := by
  induction cs generalizing r with
  | nil => exact .inl rfl
  | cons c cs ih =>
    have hrest : ∀ d ∈ cs, d.KeepsScreen := fun d hd => hcs d (List.mem_cons_of_mem c hd)
    have hafter := ih (r.handle c).state hrest
    rcases r.ticked_move_or_grants c with hmove | ⟨rfl, hgrants⟩
    · -- the call runs no cycle, so the rest starts from the same screen
      rw [screen_handle (hcs c List.mem_cons_self) hmove] at hafter
      rw [ticked_cons, hmove, List.nil_append]
      exact hafter
    · rcases (r.machine.setKeys r.console.keys).screen_cycle with hframe | htears
      · -- the rest starts from the frame of this cycle
        have hscreen : (r.handle .tick).state.machine.screen =
            (frameOf? r.nextCycle).getD r.machine.screen := by
          rw [machine_tick hgrants]
          exact hframe
        rw [hscreen] at hafter
        rw [ticked_tick hgrants]
        exact hafter.cons
      · exact shownOrTorn_of_tears hgrants htears hrest

/-! ## From the start -/

/-- **The screen is the last frame.**  Whatever a host calls on a runner that starts with a dark
screen, as long as it does not change the screen itself, the screen is the frame that the host was
shown last, or dark if it was shown none.  The only exception is a runner that was halted by a
sprite which begins in memory and runs over its end: its screen is the last frame with the rows of
that sprite drawn which are there. -/
theorem screen_eq_last_frame {p : Machine} (hdark : p.screen = .dark) (keys : Keypad)
    {cs : List Call} (hcs : ∀ c ∈ cs, c.KeepsScreen) :
    let o := (start p keys).andThen fun r => r.run cs
    let frames := o.result.flatMap Answer.screens ++ o.state.console.frames
    let shown := frames.getLast?.getD .dark
    o.state.machine.screen = shown ∨
      o.state.control.fault = some (.addressOutOfBounds 4096 4096) ∧
        ∃ m : Machine, (p.ticked ((start p keys).state.moves cs)).getLast? = some m.cycle ∧
          m.screen = shown ∧ m.Tears o.state.machine.screen := by
  intro o frames shown
  have hframes : frames = (p.ticked ((start p keys).state.moves cs)).filterMap frameOf? :=
    ((start p keys).state.follows_run cs).frames
  have hrun := (start p keys).state.screen_run hcs
  have hshown : shown = lastShown (p.ticked ((start p keys).state.moves cs)) p.screen := by
    rw [lastShown, ← hframes, hdark]
  rw [hshown]
  exact hrun

/-- A machine whose program draws the first glyph of the font. -/
@[irreducible]
def drawing : Machine := ((Machine.new default default none).load [0xD0, 0x05]).state

theorem screen_eq_last_frame_drawing :
    let cs := [Call.pause, .step, .tick, .takeFrames, .machine .tickDelay, .tick]
    let o := (start drawing .released).andThen fun r => r.run cs
    let frames := o.result.flatMap Answer.screens ++ o.state.console.frames
    drawing.screen = .dark ∧ (∀ c ∈ cs, c.KeepsScreen) ∧
      o.state.machine.screen = frames.getLast?.getD .dark ∧
      o.state.machine.screen.countOn = 14 := by
  intro cs o frames
  have hdark : drawing.screen = .dark := by rw [drawing]; rfl
  have hcs : ∀ c ∈ cs, c.KeepsScreen := by simp [cs, Call.KeepsScreen]
  have hfault : o.state.control.fault = none := by decide +kernel
  refine ⟨hdark, hcs, ?_, by decide +kernel⟩
  rcases screen_eq_last_frame hdark .released hcs with hshown | ⟨hhalted, -⟩
  · exact hshown
  · cases hfault.symm.trans hhalted

/-- **The screen can get ahead of the frames**: eight pixels of the sprite that runs over the end of
memory are lit, and no frame was shown. -/
theorem screen_ahead_of_frames :
    let cs := List.replicate 5 Call.tick
    let o := (start Machine.overhanging .released).andThen fun r => r.run cs
    Machine.overhanging.screen = .dark ∧ (∀ c ∈ cs, c.KeepsScreen) ∧
      o.result.flatMap Answer.screens ++ o.state.console.frames = [] ∧
      o.state.machine.screen.countOn = 8 := by
  intro cs o
  have hcs : ∀ c ∈ cs, c.KeepsScreen := by simp [cs, Call.KeepsScreen]
  have hdark : Machine.overhanging.screen = .dark := by rw [Machine.overhanging]; rfl
  exact ⟨hdark, hcs, by decide +kernel, by decide +kernel⟩

end Runner
end Chip8
