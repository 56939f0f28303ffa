import Chip8.Proofs.Cycle.Faults
import Chip8.Runner.Call

/-!
# What a runner does to its machine

A runner has a machine, a control that grants cycles, and a host that is asked for keys and shown
frames.  Seen from the machine only two things ever happen: something from outside, or a granted
tick, which sets the keys that the host answers with and runs one cycle.  These are the moves of a
run (`Runner.moves`), and they can be replayed on a bare machine (`Machine.replay`).

The replay tells everything about the run: the machine at its end, the frames the host was shown,
how often it was asked for keys, the fault that halted the runner, and the errors it recorded.
`Follows` says so for a stretch of a run; it holds for every call (`follows_handle`), two stretches
make one (`Follows.append`), and so it holds for every list of calls (`follows_run`).

## What is here

* `errorsOf`, `Machine.errorsOf_handle` — a machine on its own records no errors.
* `Runner.Move`, `Runner.moves`, `Machine.replay`, `Machine.ticked` — the moves and their replay.
* `Runner.tick_of_grants`, `Runner.tick_of_not_grants` — what a tick does.
* `Runner.Follows`, `Runner.follows_run` — a run and the replay of its moves.
* `Runner.fault_run_of_halted`, `Runner.ticked_of_halted` — a halt is for good.
* `Runner.length_halts_le_one` — a runner halts at most once.
* `Runner.run_start_replays` — all of it for a runner from its start.
-/

set_option autoImplicit false

namespace Chip8

/-! ## Errors on record -/

/-- The records of a log that report errors. -/
def errorsOf (log : List Record) : List Record := log.filter fun r => r.level = .error

theorem errorsOf_append (log log' : List Record) :
    errorsOf (log ++ log') = errorsOf log ++ errorsOf log' :=
  List.filter_append ..

namespace Machine

theorem errorsOf_execute (m : Machine) (i : Instruction) : errorsOf (m.execute i).log = [] := by
  cases i with
  | ret =>
    change errorsOf m.leave.log = []
    rw [leave]
    split <;> rfl
  | awaitKey x =>
    change errorsOf (m.takeKey x).log = []
    rw [takeKey]
    split <;> rfl
  | storeDecimal x | storeRegisters x | fillRegisters x =>
    change errorsOf (afterTransfer _ _).log = []
    rw [afterTransfer]
    split <;> rfl
  | _ => rfl

theorem errorsOf_cycle (m : Machine) : errorsOf m.cycle.log = [] := by
  refine cycle_cases (P := fun o => errorsOf o.log = []) m (fun _ _ => rfl) (fun _ _ _ => rfl)
    (fun w i _ _ => ?_)
  have hlog : errorsOf ((m.fetched w).performLog i) = [] := (m.fetched w).errorsOf_execute i
  rcases h : ((m.fetched w).execute i).result with f | ⟨step, s⟩
  · rw [perform_of_error h]
    exact hlog
  · rw [perform_of_ok h]
    exact hlog

/-- **A machine on its own records no errors.** -/
theorem errorsOf_handle (m : Machine) (e : Event) : errorsOf (m.handle e).log = [] := by
  cases e with
  | load rom =>
    change errorsOf (m.memory.load rom Memory.programStart).log = []
    rw [Memory.load]
    split <;> rfl
  | setKey code down =>
    change errorsOf (m.keypad.set code down).log = []
    rw [Keypad.set]
    split <;> rfl
  | pollSpeaker age =>
    change errorsOf (m.pollSpeaker age).log = []
    rw [pollSpeaker]
    split
    · rfl
    · next s _ =>
      change errorsOf (s.poll m.sound.value).log = []
      rw [Speaker.poll, Speaker.beep]
      cases s.sound <;> grind [Outcome.mapResult, errorsOf, Record.level]
  | cycle => exact m.errorsOf_cycle
  | reset | setKeys | attach | tickDelay | tickSound => rfl

end Machine

/-! ## Moves -/

/-- What reaches the machine of a runner. -/
inductive Runner.Move
  /-- Something happens to the machine from outside. -/
  | host (event : Machine.Event)
  /-- A tick is granted a cycle, and the host answers with these keys. -/
  | tick (keys : Keypad)

/-- A move as events of a bare machine. -/
def Runner.Move.events : Move → List Machine.Event
  | host event => [event]
  | tick keys => [.setKeys keys, .cycle]

namespace Machine

open Runner (Move)

/-- The machine after a list of moves. -/
def replay (m : Machine) (ms : List Move) : Machine := (m.run (ms.flatMap Move.events)).state

/-- The cycles of the ticks in a list of moves, each with what it left behind. -/
def ticked (m : Machine) : List Move → List (Outcome Machine (Except Fault Signal))
  | [] => []
  | .host event :: ms => (m.handle event).state.ticked ms
  | .tick keys :: ms =>
    let ran := (m.setKeys keys).cycle
    ran :: ran.state.ticked ms

theorem replay_host (m : Machine) (e : Event) (ms : List Move) :
    m.replay (.host e :: ms) = (m.handle e).state.replay ms := rfl

theorem replay_tick (m : Machine) (keys : Keypad) (ms : List Move) :
    m.replay (.tick keys :: ms) = (m.setKeys keys).cycle.state.replay ms := rfl

theorem replay_append (m : Machine) (ms ns : List Move) :
    m.replay (ms ++ ns) = (m.replay ms).replay ns := by
  induction ms generalizing m with
  | nil => rfl
  | cons move ms ih =>
    cases move with
    | host e => rw [List.cons_append, replay_host, ih, replay_host]
    | tick keys => rw [List.cons_append, replay_tick, ih, replay_tick]

theorem ticked_append (m : Machine) (ms ns : List Move) :
    m.ticked (ms ++ ns) = m.ticked ms ++ (m.replay ms).ticked ns := by
  induction ms generalizing m with
  | nil => rfl
  | cons move ms ih =>
    cases move with
    | host e => rw [List.cons_append, ticked, ih, ticked, replay_host]
    | tick keys => rw [List.cons_append, ticked, ih, ticked, replay_tick, List.cons_append]

end Machine

/-! ## What a tick leaves behind -/

/-- The frame of a cycle: the screen right after it, if it asked for a redraw. -/
def frameOf? (ran : Outcome Machine (Except Fault Signal)) : Option Screen :=
  match ran.result with
  | .ok .redraw => some ran.state.screen
  | _ => none

/-- The record of a halt: a cycle that failed. -/
def haltOf? (ran : Outcome Machine (Except Fault Signal)) : Option Record :=
  (faultOf? ran.result).map (.halted ran.state.pc ran.state.opcode ·)

/-- The record of a halt is an error. -/
theorem errorsOf_haltOf? (ran : Outcome Machine (Except Fault Signal)) :
    errorsOf (haltOf? ran).toList = (haltOf? ran).toList := by
  rw [haltOf?]
  cases faultOf? ran.result <;> rfl

namespace RunControl

theorem takeCycle_of_not {c : RunControl} (h : c.takeCycle.1 = false) : c.takeCycle.2 = c := by
  rw [takeCycle] at h ⊢
  grind

theorem fault_takeCycle (c : RunControl) : c.takeCycle.2.fault = c.fault := by
  rw [takeCycle]
  grind

theorem takeCycle_of_fault {c : RunControl} {f : Fault} (h : c.fault = some f) :
    c.takeCycle.1 = false := by
  rw [takeCycle, h]
  rfl

end RunControl

namespace Runner

/-- Whether a tick would be granted a cycle. -/
def grants (r : Runner) : Bool := r.worker.alive && r.control.takeCycle.1

/-- A tick that is not granted a cycle does nothing at all. -/
theorem tick_of_not_grants {r : Runner} (h : r.grants = false) : r.tick = ⟨r, (), []⟩ := by
  rw [tick]
  split
  · next halive =>
    have hfalse : r.control.takeCycle.1 = false := by rwa [grants, halive, Bool.true_and] at h
    simp only [grant, hfalse, RunControl.takeCycle_of_not hfalse]
  · rfl

/-- The cycle that a granted tick runs, with the keys of the host. -/
def nextCycle (r : Runner) : Outcome Machine (Except Fault Signal) :=
  (r.machine.setKeys r.console.keys).cycle

/-- The host's side after that cycle: asked for keys once more, and shown the frame if there is
one. -/
def nextConsole (r : Runner) : Console :=
  { r.console with
    polls := r.console.polls + 1
    frames := r.console.frames ++ (frameOf? r.nextCycle).toList }

theorem runCycle_eq (r : Runner) :
    r.runCycle =
      ⟨{ r with machine := r.nextCycle.state, console := r.nextConsole },
        faultOf? r.nextCycle.result, r.nextCycle.log ++ (haltOf? r.nextCycle).toList⟩ := by
  rw [nextConsole, nextCycle, runCycle]
  simp only [Console.poll, Console.display, frameOf?, haltOf?]
  rcases (r.machine.setKeys r.console.keys).cycle.result with f | s
  · simp [faultOf?]
  · cases s <;> simp [faultOf?]

theorem report_eq {r : Runner} (h : r.control.fault = none) (fault : Option Fault) :
    r.report fault = { r with control := { r.control with fault } } := by
  cases fault with
  | none =>
    obtain ⟨m, ⟨paused, steps, fault⟩, w, c, n⟩ := r
    cases h
    rfl
  | some f => rfl

theorem fault_of_grants {r : Runner} (h : r.grants = true) : r.control.fault = none := by
  rcases hf : r.control.fault with - | f
  · rfl
  · rw [grants, RunControl.takeCycle_of_fault hf, Bool.and_false] at h
    cases h

/-- **A granted tick**: whatever the result of its cycle, the host is asked for keys once, sees the
frame if there is one, and a fault halts the runner and leaves a record. -/
theorem tick_of_grants {r : Runner} (h : r.grants = true) :
    r.tick =
      ⟨{ r with
          machine := r.nextCycle.state
          control := { r.control.takeCycle.2 with fault := faultOf? r.nextCycle.result }
          console := r.nextConsole },
        (), r.nextCycle.log ++ (haltOf? r.nextCycle).toList⟩ := by
  have hfault := fault_of_grants h
  rw [← RunControl.fault_takeCycle] at hfault
  obtain ⟨halive, htrue⟩ := (Bool.and_eq_true ..).mp h
  rw [tick, if_pos halive]
  simp only [grant, htrue, runCycle_eq]
  rw [report_eq hfault]
  rfl

/-! ## The moves of a run -/

/-- The move that a call makes, if it reaches the machine. -/
def move (r : Runner) : Call → List Move
  | .tick => if r.grants then [.tick r.console.keys] else []
  | .machine event => [.host event]
  | _ => []

/-- The moves that a list of calls makes. -/
def moves (r : Runner) : List Call → List Move
  | [] => []
  | c :: cs => r.move c ++ (r.handle c).state.moves cs

/-- The frames in an answer. -/
def Answer.screens : Answer → List Screen
  | .frames screens => screens
  | _ => []

/-- **A stretch of a run follows its moves**: the replay of the moves tells what became of the
machine, what the host was shown, how often it was asked for keys, which fault halted the runner,
and which errors were recorded. -/
structure Follows (r : Runner) (ms : List Move) (o : Outcome Runner (List Answer)) : Prop where
  machine : o.state.machine = r.machine.replay ms
  /-- The frames the host took, then those it has not taken yet. -/
  frames : o.result.flatMap Answer.screens ++ o.state.console.frames =
    r.console.frames ++ (r.machine.ticked ms).filterMap frameOf?
  polls : o.state.console.polls = r.console.polls + (r.machine.ticked ms).length
  fault : o.state.control.fault =
    r.control.fault.or ((r.machine.ticked ms).findSome? fun ran => faultOf? ran.result)
  errors : errorsOf o.log = (r.machine.ticked ms).filterMap haltOf?

namespace Follows

variable {r : Runner} {ms ns : List Move} {o o' : Outcome Runner (List Answer)}

/-- Where nothing changes there is no move. -/
theorem refl (r : Runner) : Follows r [] ⟨r, [], []⟩ where
  machine := rfl
  frames := (List.append_nil _).symm
  polls := rfl
  fault := (Option.or_none ..).symm
  errors := rfl

/-- **Two stretches in a row** follow the moves of both. -/
theorem append (h : Follows r ms o) (h' : Follows o.state ns o') :
    Follows r (ms ++ ns) ⟨o'.state, o.result ++ o'.result, o.log ++ o'.log⟩ where
  machine := by rw [h'.machine, h.machine, Machine.replay_append]
  frames := by
    rw [List.flatMap_append, List.append_assoc, h'.frames, ← List.append_assoc, h.frames,
      h.machine, Machine.ticked_append, List.filterMap_append, List.append_assoc]
  polls := by
    rw [h'.polls, h.polls, h.machine, Machine.ticked_append, List.length_append, Nat.add_assoc]
  fault := by
    rw [h'.fault, h.fault, h.machine, Machine.ticked_append, List.findSome?_append,
      Option.or_assoc]
  errors := by
    rw [errorsOf_append, h'.errors, h.errors, h.machine, Machine.ticked_append,
      List.filterMap_append]

end Follows

/-- A tick follows its move, if it makes one. -/
theorem follows_tick (r : Runner) :
    Follows r (r.move .tick) (r.tick.mapResult fun _ => [.done]) := by
  rw [move]
  by_cases h : r.grants
  · have hticked : r.machine.ticked [.tick r.console.keys] = [r.nextCycle] := rfl
    rw [if_pos h, tick_of_grants h]
    exact
      { machine := rfl
        frames := by
          change r.console.frames ++ (frameOf? r.nextCycle).toList = _
          rw [hticked]
          rfl
        polls := rfl
        fault := by
          rw [fault_of_grants h, hticked, List.findSome?_singleton, Option.none_or]
          rfl
        errors := by
          rw [hticked]
          change errorsOf (r.nextCycle.log ++ (haltOf? r.nextCycle).toList) =
            (haltOf? r.nextCycle).toList
          rw [errorsOf_append, nextCycle, Machine.errorsOf_cycle, List.nil_append,
            errorsOf_haltOf?] }
  · rw [if_neg h, tick_of_not_grants (Bool.eq_false_iff.mpr h)]
    exact { Follows.refl r with }

/-- **Every call follows its move.** -/
theorem follows_handle (r : Runner) (c : Call) :
    Follows r (r.move c) ((r.handle c).mapResult fun a => [a]) := by
  have hr := Follows.refl r
  cases c with
  | tick => exact r.follows_tick
  | machine e => exact { hr with machine := rfl, errors := r.machine.errorsOf_handle e }
  | step =>
    refine { hr with fault := ?_ }
    change (RunControl.step r.control).fault = _
    rw [RunControl.step]
    split <;> exact hr.fault
  | takeFrames =>
    refine { hr with frames := ?_ }
    change [Answer.frames r.console.frames].flatMap Answer.screens ++ [] = r.console.frames ++ []
    rw [List.flatMap_singleton, Answer.screens]
  | _ => exact { hr with }

/-- **Every run follows its moves.** -/
theorem follows_run (r : Runner) (cs : List Call) : Follows r (r.moves cs) (r.run cs) := by
  induction cs generalizing r with
  | nil => exact Follows.refl r
  | cons c cs ih => exact (r.follows_handle c).append (ih _)

theorem moves_append (r : Runner) (cs ds : List Call) :
    r.moves (cs ++ ds) = r.moves cs ++ (r.run cs).state.moves ds := by
  induction cs generalizing r with
  | nil => rfl
  | cons c cs ih => rw [List.cons_append, moves, ih, moves, List.append_assoc]; rfl

/-! ## Halted runners -/

theorem grants_of_halted {r : Runner} {f : Fault} (h : r.control.fault = some f) :
    r.grants = false := by
  rw [grants, RunControl.takeCycle_of_fault h, Bool.and_false]

/-- **A halt is for good**, whatever is called after it. -/
theorem fault_run_of_halted {r : Runner} {f : Fault} (h : r.control.fault = some f)
    (cs : List Call) : (r.run cs).state.control.fault = some f := by
  rw [(r.follows_run cs).fault, h, Option.some_or]

-- not even switching the machine off and on brings a halted runner back
example :
    ((start default .released).state.run
      [.machine (.load [0xFF, 0xFF]), .tick, .machine .reset, .resume, .tick]).state.control.fault =
        some (.invalidOpcode ⟨0xFFFF⟩) := by decide +kernel

/-- The first call of a run takes the machine where the rest of the run goes on. -/
theorem ticked_cons (r : Runner) (c : Call) (cs : List Call) :
    r.machine.ticked (r.moves (c :: cs)) =
      r.machine.ticked (r.move c)
        ++ (r.handle c).state.machine.ticked ((r.handle c).state.moves cs) := by
  have hm : (r.handle c).state.machine = r.machine.replay (r.move c) := (r.follows_handle c).machine
  rw [moves, Machine.ticked_append, hm]

/-- **No cycle runs after a halt.** -/
theorem ticked_of_halted {r : Runner} {f : Fault} (h : r.control.fault = some f)
    (cs : List Call) : r.machine.ticked (r.moves cs) = [] := by
  induction cs generalizing r with
  | nil => rfl
  | cons c cs ih =>
    have hfirst : r.machine.ticked (r.move c) = [] := by
      cases c with
      | tick => rw [move, grants_of_halted h]; rfl
      | _ => rfl
    rw [ticked_cons, hfirst, List.nil_append]
    exact ih (fault_run_of_halted h [c])

theorem length_ticked_move (r : Runner) (c : Call) :
    (r.machine.ticked (r.move c)).length ≤ 1 := by
  cases c with
  | tick =>
    rw [move]
    split
    · exact Nat.le_refl 1
    · exact Nat.zero_le 1
  | _ => exact Nat.zero_le 1

theorem filterMap_haltOf?_eq_nil {ran : List (Outcome Machine (Except Fault Signal))}
    (h : (ran.findSome? fun o => faultOf? o.result) = none) : ran.filterMap haltOf? = [] := by
  rw [List.filterMap_eq_nil_iff]
  intro o ho
  rw [haltOf?, List.findSome?_eq_none_iff.mp h o ho]
  rfl

/-- **A runner halts at most once.** -/
theorem length_halts_le_one (r : Runner) (cs : List Call) :
    ((r.machine.ticked (r.moves cs)).filterMap haltOf?).length ≤ 1 := by
  induction cs generalizing r with
  | nil => exact Nat.zero_le 1
  | cons c cs ih =>
    rw [ticked_cons, List.filterMap_append, List.length_append]
    have hfault : (r.handle c).state.control.fault = _ := (r.follows_handle c).fault
    rcases hfirst : (r.machine.ticked (r.move c)).findSome? (fun o => faultOf? o.result) with - | f
    · rw [filterMap_haltOf?_eq_nil hfirst, List.length_nil, Nat.zero_add]
      exact ih _
    · -- the first call already halted the runner, so the others run no cycle
      obtain ⟨g, hg⟩ : ∃ g, (r.handle c).state.control.fault = some g := by
        rw [hfault, hfirst]
        cases r.control.fault <;> exact ⟨_, rfl⟩
      rw [ticked_of_halted hg]
      exact Nat.le_trans (List.length_filterMap_le ..) (r.length_ticked_move c)

/-! ## Runners that are never stopped -/

/-- Until it is stopped, the worker of a runner stays alive. -/
theorem alive_run {r : Runner} (h : r.worker.alive = true) {cs : List Call} (hcs : .stop ∉ cs) :
    (r.run cs).state.worker.alive = true := by
  induction cs generalizing r with
  | nil => exact h
  | cons c cs ih =>
    rw [List.mem_cons, not_or] at hcs
    refine ih ?_ hcs.2
    cases c with
    | stop => exact absurd rfl hcs.1
    | tick =>
      change r.tick.state.worker.alive = true
      by_cases hg : r.grants
      · rw [tick_of_grants hg]
        exact h
      · rw [tick_of_not_grants (Bool.eq_false_iff.mpr hg)]
        exact h
    | _ => exact h

/-! ## From the start -/

/-- **A runner replays its moves**, from its start, for every machine, every answer of the host and
every list of calls.  The machine is the one that the moves lead to on their own.  The host was
shown the screens right after those cycles of ticks that asked for a redraw, and was asked for keys
once for each cycle.  The fault is that of the first cycle that failed.  From then on it stays,
whatever is called, no tick does anything, and no cycle runs; so at most one error is recorded. -/
theorem run_start_replays (p : Machine) (keys : Keypad) (cs : List Call) :
    let r := (start p keys).state
    let o := (start p keys).andThen fun r => r.run cs
    let ran := p.ticked (r.moves cs)
    o.state.machine = p.replay (r.moves cs) ∧
      o.result.flatMap Answer.screens ++ o.state.console.frames = ran.filterMap frameOf? ∧
      o.state.console.polls = ran.length ∧
      (o.state.control.fault = ran.findSome? fun x => faultOf? x.result) ∧
      errorsOf o.log = ran.filterMap haltOf? ∧
      (errorsOf o.log).length ≤ 1 ∧
      (.stop ∉ cs → o.state.grants = o.state.control.takeCycle.1) ∧
      ∀ f, o.state.control.fault = some f → ∀ ds,
        (o.state.run ds).state.control.fault = some f ∧
          (o.state.run ds).state.tick = ⟨(o.state.run ds).state, (), []⟩ ∧
          p.ticked (r.moves (cs ++ ds)) = ran := by
  intro r o ran
  have h : Follows r (r.moves cs) (r.run cs) := r.follows_run cs
  refine ⟨h.machine, h.frames, ?_, ?_, h.errors, ?_, fun hcs => ?_, fun f hf ds => ?_⟩
  · exact h.polls.trans (Nat.zero_add _)
  · exact h.fault.trans Option.none_or
  · change (errorsOf (r.run cs).log).length ≤ 1
    rw [h.errors]
    exact r.length_halts_le_one cs
  · have halive : o.state.worker.alive = true := alive_run rfl hcs
    rw [grants, halive, Bool.true_and]
  · have hds := fault_run_of_halted hf ds
    refine ⟨hds, tick_of_not_grants (grants_of_halted hds), ?_⟩
    have hrest : (r.run cs).state.machine.ticked ((r.run cs).state.moves ds) = [] :=
      ticked_of_halted hf ds
    have hm : (r.run cs).state.machine = p.replay (r.moves cs) := h.machine
    rw [moves_append, Machine.ticked_append, ← hm, hrest, List.append_nil]

end Runner
end Chip8
