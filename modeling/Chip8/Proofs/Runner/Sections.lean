import Chip8.Proofs.Runner.Stepping
import Chip8.Runner.Split

/-!
# Ticks that are interrupted

A tick is not atomic: the host can call between the grant and the cycle, and between the cycle and
the report of its fault.  Still it makes no difference.  Whatever calls get in between, there is an
order of the calls in which they come before the tick or after it, every call has the same answer,
and the same runner is left.

The order is found as the calls come in.  While a tick is under way there are the calls that go
before it and those that go after it (`Serial`).  Between the grant and the cycle, the calls that
concern the control go after the tick, as the grant did not see them, and all others before it, as
the cycle has seen them.  Once the cycle has failed, all calls go after it but the question for the
fault, as it gets no answer yet.  This works because the control and the rest of the runner are
separate parts, and a call that goes to the other side does not notice the sections it passes.

## What is here

* `Call.fromHost`, `Call.forControl` — the calls that can get in between, and where they go.
* `Runner.talk` — calls with their answers.
* `Runner.run_comm` — calls that do not notice a change of the runner.
* `Runner.Serial`, `Serial.turn` — the order that is found, turn by turn.
* `Split.grantsIn` — the cycles that are granted, with what becomes of them and of the steps.
* `Runner.interrupted_ticks_serialize` — all of it for a runner from its start.
-/

set_option autoImplicit false

namespace Chip8
namespace Runner

/-! ## Calls and answers -/

namespace Call

/-- The calls that a host can make while a tick is under way; to stop the runner it has to wait for
the tick. -/
def fromHost : Call → Bool
  | tick | stop => false
  | _ => true

/-- The calls that concern the control, but for the question for the fault. -/
def forControl : Call → Bool
  | pause | resume | step | isPaused => true
  | _ => false

end Call

/-- Calls with their answers. -/
def talk (r : Runner) (cs : List Call) : List (Call × Answer) := cs.zip (r.run cs).result

/-- Calls with their answers, without the ticks. -/
def hostTalk (r : Runner) (cs : List Call) : List (Call × Answer) :=
  (r.talk cs).filter fun p => !p.1.isTick

/-- The runner after a list of calls. -/
def after (r : Runner) (cs : List Call) : Runner := (r.run cs).state

variable {r : Runner} {c : Call} {cs ds ks : List Call}

theorem after_append (r : Runner) (cs ds : List Call) :
    r.after (cs ++ ds) = (r.after cs).after ds := by
  induction cs generalizing r with
  | nil => rfl
  | cons c cs ih => exact ih _

theorem log_run_append (r : Runner) (cs ds : List Call) :
    (r.run (cs ++ ds)).log = (r.run cs).log ++ ((r.after cs).run ds).log := by
  induction cs generalizing r with
  | nil => rfl
  | cons c cs ih =>
    simp only [List.cons_append, run, ih, List.append_assoc]
    rfl

theorem talk_append (r : Runner) (cs ds : List Call) :
    r.talk (cs ++ ds) = r.talk cs ++ (r.after cs).talk ds := by
  induction cs generalizing r with
  | nil => rfl
  | cons c cs ih => exact congrArg (List.cons _) (ih _)

theorem hostTalk_append (r : Runner) (cs ds : List Call) :
    r.hostTalk (cs ++ ds) = r.hostTalk cs ++ (r.after cs).hostTalk ds := by
  rw [hostTalk, talk_append, List.filter_append]
  rfl

theorem hostTalk_of_fromHost (r : Runner) (h : ∀ c ∈ ks, c.fromHost = true) :
    r.hostTalk ks = r.talk ks := by
  rw [hostTalk, List.filter_eq_self]
  rintro ⟨c, a⟩ hp
  have hc := h c (List.of_mem_zip hp).1
  cases c with
  | tick => cases hc
  | _ => rfl

theorem hostTalk_singleton (hc : c.fromHost = true) (r : Runner) :
    r.hostTalk [c] = [(c, (r.handle c).result)] :=
  r.hostTalk_of_fromHost (by simpa using hc)

theorem log_run_singleton (r : Runner) (c : Call) : (r.run [c]).log = (r.handle c).log :=
  List.append_nil _

/-- One more of the calls that go before others. -/
theorem perm_before {said before later : List (Call × Answer)} {p : Call × Answer}
    (h : said.Perm (before ++ later)) : (said ++ [p]).Perm (before ++ [p] ++ later) := by
  refine (h.append_right [p]).trans ?_
  rw [List.append_assoc, List.append_assoc]
  exact List.perm_append_comm.append_left before

/-! ## Calls that do not notice a change -/

/-- **Calls that do not notice a change** one by one do not notice it as a list. -/
theorem run_comm {f : Runner → Runner}
    (h : ∀ c ∈ cs, ∀ r : Runner, (f r).handle c = (r.handle c).mapState f) (r : Runner) :
    (f r).run cs = (r.run cs).mapState f := by
  induction cs generalizing r with
  | nil => rfl
  | cons c cs ih =>
    have hfirst := h c List.mem_cons_self r
    have hrest := ih (fun d hd => h d (List.mem_cons_of_mem c hd)) (r.handle c).state
    simp only [run, hfirst, Outcome.mapState] at hrest ⊢
    simp only [hrest]

theorem talk_comm {f : Runner → Runner}
    (h : ∀ c ∈ cs, ∀ r : Runner, (f r).handle c = (r.handle c).mapState f) (r : Runner) :
    (f r).talk cs = r.talk cs := by
  rw [talk, run_comm h]
  rfl

theorem after_comm {f : Runner → Runner}
    (h : ∀ c ∈ cs, ∀ r : Runner, (f r).handle c = (r.handle c).mapState f) (r : Runner) :
    (f r).after cs = f (r.after cs) := by
  rw [after, run_comm h]
  rfl

/-- The same runner with another machine, and another side of the host. -/
def withDevices (m : Machine) (d : Console) (r : Runner) : Runner :=
  { r with machine := m, console := d }

/-- Calls that concern the control do not notice the machine or the host's side. -/
theorem handle_withDevices (hc : c.forControl = true) (m : Machine) (d : Console) (r : Runner) :
    (r.withDevices m d).handle c = (r.handle c).mapState (withDevices m d) := by
  cases c with
  | pause | resume | step | isPaused => rfl
  | _ => cases hc

/-- All other calls do not notice the control, but for its fault. -/
theorem handle_withControl (hc : c.fromHost = true) (hside : c.forControl = false)
    {k : RunControl} (hk : k.fault = r.control.fault) :
    ({ r with control := k } : Runner).handle c =
      (r.handle c).mapState fun r => { r with control := k } := by
  cases c with
  | tick | stop => cases hc
  | pause | resume | step | isPaused => cases hside
  | fault => simp only [handle, hk, Outcome.mapState]
  | _ => rfl

/-- Only the question for the fault notices a report. -/
theorem handle_report (hc : c.fromHost = true ∧ c ≠ .fault) (fault : Option Fault) (r : Runner) :
    (r.report fault).handle c = (r.handle c).mapState (·.report fault) := by
  obtain ⟨hc, hquestion⟩ := hc
  cases fault with
  | none => rfl
  | some f =>
    cases c with
    | tick | stop => cases hc
    | fault => exact absurd rfl hquestion
    | step =>
      obtain ⟨m, ⟨paused, steps, fault⟩, w, d, n⟩ := r
      cases paused <;> rfl
    | _ => rfl

theorem fromHost_of_forControl (hc : c.forControl = true) : c.fromHost = true ∧ c ≠ .fault := by
  cases c with
  | pause | resume | step | isPaused => exact ⟨rfl, Call.noConfusion⟩
  | _ => cases hc

/-- No call of the host reports a fault. -/
theorem fault_handle (hc : c.fromHost = true) (r : Runner) :
    (r.handle c).state.control.fault = r.control.fault := by
  cases c with
  | step =>
    simp only [handle, step, RunControl.step]
    split <;> rfl
  | tick | stop => cases hc
  | _ => rfl

theorem fault_after (h : ∀ c ∈ ks, c.fromHost = true) (r : Runner) :
    (r.after ks).control.fault = r.control.fault := by
  induction ks generalizing r with
  | nil => rfl
  | cons c ks ih =>
    exact (ih (fun d hd => h d (List.mem_cons_of_mem c hd)) _).trans
      (fault_handle (h c List.mem_cons_self) r)

/-- Calls that concern the control change nothing else, and they leave no record. -/
theorem run_of_forControl (h : ∀ c ∈ ks, c.forControl = true) (r : Runner) :
    r.after ks = { r with control := (r.after ks).control } ∧ (r.run ks).log = [] := by
  induction ks generalizing r with
  | nil => exact ⟨rfl, rfl⟩
  | cons c ks ih =>
    obtain ⟨hafter, hlog⟩ := ih (fun d hd => h d (List.mem_cons_of_mem c hd)) (r.handle c).state
    have hc := h c List.mem_cons_self
    cases c with
    | pause | resume | step | isPaused => exact ⟨hafter, hlog⟩
    | _ => cases hc

/-! ## The sections of a tick -/

/-- The runner after the first section of a tick. -/
def opened (r : Runner) : Runner := r.grant.2

/-- The second section of a tick that was granted a cycle. -/
def ran (r : Runner) : Outcome Runner (Option Fault) := r.opened.runCycle

theorem grant_of_grants (h : r.grants = true) :
    r.worker.alive = true ∧ r.grant = (true, r.opened) := by
  obtain ⟨halive, htrue⟩ := (Bool.and_eq_true ..).mp h
  exact ⟨halive, Prod.ext htrue rfl⟩

/-- A tick that is granted a cycle, section by section. -/
theorem tick_of_sections (h : r.grants = true) :
    r.tick = ⟨r.ran.state.report r.ran.result, (), r.ran.log⟩ := by
  obtain ⟨halive, hgrant⟩ := grant_of_grants h
  rw [tick, if_pos halive, hgrant]
  rfl

theorem ran_state (r : Runner) :
    r.ran.state = r.opened.withDevices r.ran.state.machine r.ran.state.console := by
  rw [ran, runCycle_eq]
  rfl

theorem fault_opened (h : r.grants = true) : r.opened.control.fault = none :=
  (RunControl.fault_takeCycle _).trans (fault_of_grants h)

/-- The second section does not notice calls that concern the control. -/
theorem runCycle_after (h : ∀ c ∈ ks, c.forControl = true) (r : Runner) :
    (r.after ks).runCycle = r.runCycle.mapState (·.after ks) := by
  obtain ⟨hafter, -⟩ := run_of_forControl h r
  have hstate : r.runCycle.state = r.withDevices r.nextCycle.state r.nextConsole := by
    rw [runCycle_eq]
    rfl
  have hcomm := after_comm
    (fun c hc => handle_withDevices (h c hc) r.nextCycle.state r.nextConsole) r
  rw [Outcome.mapState, hstate, hcomm, hafter, runCycle_eq, runCycle_eq]
  rfl

/-- What the second section leaves after calls that concern the control: they do not notice it, and
it does not notice them. -/
theorem ran_after (h : ∀ c ∈ ks, c.forControl = true) (r : Runner) :
    (r.opened.after ks).runCycle = r.ran.mapState (·.after ks) ∧
      r.ran.state.talk ks = r.opened.talk ks ∧ (r.ran.state.run ks).log = [] := by
  refine ⟨runCycle_after h _, ?_, (run_of_forControl h _).2⟩
  rw [ran_state]
  exact talk_comm (fun c hc => handle_withDevices (h c hc) _ _) _

/-- **A tick and the calls after it**, section by section: the report can wait for the calls. -/
theorem run_tick (h : r.grants = true) (hks : ∀ c ∈ ks, c.fromHost = true ∧ c ≠ .fault) :
    r.after (.tick :: ks) = (r.ran.state.after ks).report r.ran.result ∧
      r.hostTalk (.tick :: ks) = r.ran.state.talk ks ∧
      (r.run (.tick :: ks)).log = r.ran.log ++ (r.ran.state.run ks).log := by
  have hreport := fun c hc => handle_report (hks c hc) r.ran.result
  have htick := tick_of_sections h
  refine ⟨?_, ?_, ?_⟩
  · change r.tick.state.after ks = _
    rw [htick]
    exact after_comm hreport _
  · change r.tick.state.hostTalk ks = _
    rw [hostTalk_of_fromHost _ fun c hc => (hks c hc).1, htick]
    exact talk_comm hreport _
  · change r.tick.log ++ (r.tick.state.run ks).log = _
    rw [htick, run_comm hreport]
    rfl

/-- Calls that do not concern the control leave it alone. -/
theorem state_of_not_forControl (hc : c.fromHost = true) (hside : c.forControl = false)
    (r : Runner) : (r.handle c).state =
      r.withDevices (r.handle c).state.machine (r.handle c).state.console := by
  cases c with
  | tick | stop => cases hc
  | pause | resume | step | isPaused => cases hside
  | _ => rfl

/-- **A call that does not concern the control can go before the tick** that is granted its cycle, and
before the calls that concern the control and came after the grant. -/
theorem pass_before (h : r.grants = true) (hks : ∀ c ∈ ks, c.forControl = true)
    (hc : c.fromHost = true) (hside : c.forControl = false) :
    let earlier := r.handle c
    earlier.state.grants = true ∧ earlier.state.opened.talk ks = r.opened.talk ks ∧
      (r.opened.after ks).handle c =
        ⟨earlier.state.opened.after ks, earlier.result, earlier.log⟩ := by
  intro earlier
  have hearlier : earlier.state = r.withDevices earlier.state.machine earlier.state.console :=
    state_of_not_forControl hc hside r
  have hnotice := fun d hd =>
    handle_withDevices (hks d hd) earlier.state.machine earlier.state.console
  refine ⟨?grants, ?talk, ?call⟩
  case grants =>
    rw [hearlier]
    exact h
  case talk =>
    rw [hearlier]
    exact talk_comm hnotice r.opened
  case call =>
    obtain ⟨hafter, -⟩ := run_of_forControl hks r.opened
    have hfault : (r.opened.after ks).control.fault = r.control.fault :=
      (fault_after (fun d hd => (fromHost_of_forControl (hks d hd)).1) _).trans
        (RunControl.fault_takeCycle _)
    have hstate : earlier.state.opened.after ks =
        { earlier.state with control := (r.opened.after ks).control } := by
      rw [hearlier]
      refine (after_comm hnotice r.opened).trans ?_
      rw [hafter]
      rfl
    rw [hafter, hstate]
    exact handle_withControl hc hside hfault

/-! ## The order that is found -/

/-- **An interrupted run is like a serial one**: a run with calls and whole ticks, as long as no tick
is under way.  Else it is like a serial run, followed by the sections that the tick has gone through
and the calls that go after it. -/
inductive Serial (r : Runner) (o : Outcome Split (List (Call × Answer))) : Prop
  | idle (cs : List Call) (stage : o.state.stage = .idle) (runner : o.state.runner = r.after cs)
      (said : o.result.Perm (r.hostTalk cs)) (log : o.log = (r.run cs).log)
  | granted (cs ks : List Call) (grants : (r.after cs).grants = true)
      (later : ∀ c ∈ ks, c.forControl = true) (stage : o.state.stage = .granted)
      (runner : o.state.runner = (r.after cs).opened.after ks)
      (said : o.result.Perm (r.hostTalk cs ++ (r.after cs).opened.talk ks))
      (log : o.log = (r.run cs).log)
  | failed (cs ks : List Call) (f : Fault) (grants : (r.after cs).grants = true)
      (fault : (r.after cs).ran.result = some f)
      (later : ∀ c ∈ ks, c.fromHost = true ∧ c ≠ .fault) (stage : o.state.stage = .failed f)
      (runner : o.state.runner = (r.after cs).ran.state.after ks)
      (said : o.result.Perm (r.hostTalk cs ++ (r.after cs).ran.state.talk ks))
      (log : o.log =
        (r.run cs).log ++ ((r.after cs).ran.log ++ ((r.after cs).ran.state.run ks).log))

/-- One more turn after a run. -/
def Split.next (o : Outcome Split (List (Call × Answer))) (t : Turn) :
    Outcome Split (List (Call × Answer)) :=
  ⟨(o.state.turn t).state, o.result ++ (o.state.turn t).result, o.log ++ (o.state.turn t).log⟩

/-- The first section, if there is no tick under way. -/
theorem turn_of_idle (x : Runner) :
    (Split.mk x .idle).turn .worker =
      if x.grants then ⟨⟨x.opened, .granted⟩, [], []⟩ else ⟨⟨x, .idle⟩, [], []⟩ := by
  cases hgrants : x.grants with
  | true =>
    obtain ⟨halive, hgrant⟩ := grant_of_grants hgrants
    simp only [Split.turn, if_pos halive, hgrant]
    rfl
  | false =>
    simp only [Split.turn]
    split
    next halive =>
      have hfalse : x.control.takeCycle.1 = false := by rwa [grants, halive] at hgrants
      simp only [grant, hfalse, RunControl.takeCycle_of_not hfalse]
      rfl
    next => rfl

namespace Serial

variable {o : Outcome Split (List (Call × Answer))}

/-- **The tick is done**: it takes its place between the calls that go before it and those that go
after it. -/
theorem close {said : List (Call × Answer)} (hgrants : (r.after cs).grants = true)
    (hks : ∀ c ∈ ks, c.fromHost = true ∧ c ≠ .fault)
    (hsaid : said.Perm (r.hostTalk cs ++ (r.after cs).ran.state.talk ks)) :
    ∃ ds, r.after ds = ((r.after cs).ran.state.after ks).report (r.after cs).ran.result ∧
      said.Perm (r.hostTalk ds) ∧
      (r.run ds).log =
        (r.run cs).log ++ ((r.after cs).ran.log ++ ((r.after cs).ran.state.run ks).log) := by
  obtain ⟨hafter, htalk, hlog⟩ := run_tick hgrants hks
  refine ⟨cs ++ .tick :: ks, ?_, ?_, ?_⟩
  · rw [after_append, hafter]
  · rwa [hostTalk_append, htalk]
  · rw [log_run_append, hlog]

/-- **The worker goes on by one section.** -/
theorem worker (h : Serial r o) : Serial r (Split.next o .worker) := by
  obtain ⟨⟨x, stage⟩, said, log⟩ := o
  cases h with
  | idle cs hstage hrunner hsaid hlog =>
    obtain rfl : stage = .idle := hstage
    obtain rfl : x = r.after cs := hrunner
    rw [Split.next, turn_of_idle]
    cases hgrants : (r.after cs).grants with
    | false => exact .idle cs rfl rfl (by simpa using hsaid) (by simpa using hlog)
    | true =>
      exact .granted cs [] hgrants (by simp) rfl rfl (by simpa [talk] using hsaid)
        (by simpa using hlog)
  | granted cs ks hgrants hks hstage hrunner hsaid hlog =>
    obtain rfl : stage = .granted := hstage
    obtain rfl : x = (r.after cs).opened.after ks := hrunner
    obtain ⟨hran, htalk, hsilent⟩ := ran_after hks (r.after cs)
    have hlater := fun c hc => fromHost_of_forControl (hks c hc)
    have hsaid' : (said ++ []).Perm (r.hostTalk cs ++ (r.after cs).ran.state.talk ks) := by
      rw [List.append_nil, htalk]
      exact hsaid
    have hlog' : log ++ (r.after cs).ran.log =
        (r.run cs).log ++ ((r.after cs).ran.log ++ ((r.after cs).ran.state.run ks).log) := by
      rw [hsilent, List.append_nil]
      exact congrArg (· ++ _) hlog
    simp only [Split.next, Split.turn, hran, Outcome.mapState]
    cases hfault : (r.after cs).ran.result with
    | none =>
      obtain ⟨ds, hafter, hsaid, hrecords⟩ := close hgrants hlater hsaid'
      rw [hfault] at hafter
      exact .idle ds rfl hafter.symm hsaid (hlog'.trans hrecords.symm)
    | some f => exact .failed cs ks f hgrants hfault hlater rfl rfl hsaid' hlog'
  | failed cs ks f hgrants hfault hks hstage hrunner hsaid hlog =>
    obtain rfl : stage = .failed f := hstage
    obtain rfl : x = (r.after cs).ran.state.after ks := hrunner
    obtain ⟨ds, hafter, hsaid, hrecords⟩ := close hgrants hks hsaid
    rw [hfault] at hafter
    refine .idle ds rfl hafter.symm ?_ ?_
    · simpa only [Split.next, Split.turn, List.append_nil] using hsaid
    · simpa only [Split.next, Split.turn, List.append_nil] using hlog.trans hrecords.symm

/-- **The host calls.** -/
theorem host (h : Serial r o) (hc : c.fromHost = true) : Serial r (Split.next o (.host c)) := by
  obtain ⟨⟨x, stage⟩, said, log⟩ := o
  cases h with
  | idle cs hstage hrunner hsaid hlog =>
    obtain rfl : stage = .idle := hstage
    obtain rfl : x = r.after cs := hrunner
    refine .idle (cs ++ [c]) rfl (after_append r cs [c]).symm ?_ ?_
    · rw [hostTalk_append, hostTalk_singleton hc]
      exact hsaid.append_right _
    · rw [log_run_append, log_run_singleton, ← show log = _ from hlog]
      rfl
  | granted cs ks hgrants hks hstage hrunner hsaid hlog =>
    obtain rfl : stage = .granted := hstage
    obtain rfl : x = (r.after cs).opened.after ks := hrunner
    cases hside : c.forControl with
    | true =>
      have hlater : ∀ d ∈ ks ++ [c], d.forControl = true := by
        intro d hd
        rcases List.mem_append.mp hd with hd | hd
        · exact hks d hd
        · rwa [List.mem_singleton.mp hd]
      refine .granted cs (ks ++ [c]) hgrants hlater rfl (after_append _ ks [c]).symm ?_ ?_
      · rw [talk_append, ← List.append_assoc]
        exact hsaid.append_right _
      · have hsilent : (((r.after cs).opened.after ks).handle c).log = [] := by
          rw [← log_run_singleton]
          exact (run_of_forControl (by simpa using hside) _).2
        simp only [Split.next, Split.turn, hsilent, List.append_nil]
        exact hlog
    | false =>
      obtain ⟨hgrants', htalk, hcall⟩ := pass_before hgrants hks hc hside
      have hcs : r.after (cs ++ [c]) = ((r.after cs).handle c).state := after_append r cs [c]
      simp only [Split.next, Split.turn, hcall]
      rw [← hcs] at hgrants' htalk ⊢
      refine .granted (cs ++ [c]) ks hgrants' hks rfl rfl ?_ ?_
      · rw [htalk, hostTalk_append, hostTalk_singleton hc]
        exact perm_before hsaid
      · rw [log_run_append, log_run_singleton, ← show log = _ from hlog]
  | failed cs ks f hgrants hfault hks hstage hrunner hsaid hlog =>
    obtain rfl : stage = .failed f := hstage
    obtain rfl : x = (r.after cs).ran.state.after ks := hrunner
    by_cases hquestion : c = .fault
    · subst hquestion
      have hnone : ((r.after cs).ran.state.after ks).control.fault = none := by
        rw [fault_after fun d hd => (hks d hd).1, ran_state]
        exact fault_opened hgrants
      have hcs : r.after (cs ++ [.fault]) = r.after cs := after_append r cs [.fault]
      simp only [Split.next, Split.turn, handle, hnone]
      refine .failed (cs ++ [.fault]) ks f ?_ ?_ hks rfl ?_ ?_ ?_
      all_goals rw [hcs]
      · exact hgrants
      · exact hfault
      · rw [hostTalk_append, hostTalk_singleton hc]
        have hanswer : ((r.after cs).handle .fault).result = .fault none :=
          congrArg Answer.fault (fault_of_grants hgrants)
        rw [hanswer]
        exact perm_before hsaid
      · rw [log_run_append, log_run_singleton]
        change log ++ [] = (r.run cs).log ++ [] ++ _
        rw [List.append_nil, List.append_nil]
        exact hlog
    · have hlater : ∀ d ∈ ks ++ [c], d.fromHost = true ∧ d ≠ .fault := by
        intro d hd
        rcases List.mem_append.mp hd with hd | hd
        · exact hks d hd
        · rw [List.mem_singleton.mp hd]
          exact ⟨hc, hquestion⟩
      refine .failed cs (ks ++ [c]) f hgrants hfault hlater rfl (after_append _ ks [c]).symm ?_ ?_
      · rw [talk_append, ← List.append_assoc]
        exact hsaid.append_right _
      · rw [log_run_append, log_run_singleton, ← List.append_assoc, ← List.append_assoc]
        refine congrArg (· ++ _) ?_
        rw [List.append_assoc]
        exact hlog

/-- **Every turn keeps the order.** -/
theorem run (h : Serial r o) {ts : List Turn} (hts : ∀ c, .host c ∈ ts → c.fromHost = true) :
    Serial r ⟨(o.state.run ts).state, o.result ++ (o.state.run ts).result,
      o.log ++ (o.state.run ts).log⟩ := by
  induction ts generalizing o with
  | nil => simpa [Split.run] using h
  | cons t ts ih =>
    have hnext : Serial r (Split.next o t) := by
      cases t with
      | host c => exact h.host (hts c List.mem_cons_self)
      | worker => exact h.worker
    have hrest := ih hnext fun c hc => hts c (List.mem_cons_of_mem t hc)
    simpa only [Split.next, Split.run, List.append_assoc] using hrest

/-- **A tick that is under way can go through the sections that are left**: then the run is a serial
one. -/
theorem finish (h : Serial r o) :
    ∃ cs, r.after cs = o.state.finish.state ∧ o.result.Perm (r.hostTalk cs) ∧
      (r.run cs).log = o.log ++ o.state.finish.log := by
  obtain ⟨⟨x, stage⟩, said, log⟩ := o
  cases h with
  | idle cs hstage hrunner hsaid hlog =>
    obtain rfl : stage = .idle := hstage
    exact ⟨cs, hrunner.symm, hsaid, hlog.symm.trans (List.append_nil _).symm⟩
  | granted cs ks hgrants hks hstage hrunner hsaid hlog =>
    obtain rfl : stage = .granted := hstage
    obtain rfl : x = (r.after cs).opened.after ks := hrunner
    obtain ⟨hran, htalk, hsilent⟩ := ran_after hks (r.after cs)
    obtain ⟨ds, hafter, hsaid, hrecords⟩ :=
      close hgrants (fun c hc => fromHost_of_forControl (hks c hc)) (htalk ▸ hsaid)
    rw [hsilent, List.append_nil] at hrecords
    simp only [Split.finish, hran, Outcome.mapState]
    exact ⟨ds, hafter, hsaid, hrecords.trans (congrArg (· ++ _) hlog.symm)⟩
  | failed cs ks f hgrants hfault hks hstage hrunner hsaid hlog =>
    obtain rfl : stage = .failed f := hstage
    obtain rfl : x = (r.after cs).ran.state.after ks := hrunner
    obtain ⟨ds, hafter, hsaid, hrecords⟩ := close hgrants hks hsaid
    rw [hfault] at hafter
    exact ⟨ds, hafter, hsaid, hrecords.trans (hlog.symm.trans (List.append_nil _).symm)⟩

end Serial

/-! ## Cycles and steps -/

/-- How many cycles were granted and have not run yet. -/
def Stage.due : Stage → Nat
  | granted => 1
  | _ => 0

namespace Split

/-- A turn of the worker is granted a cycle. -/
def grantsOn (s : Split) : Turn → Bool
  | .worker => s.stage = .idle ∧ s.runner.grants
  | .host _ => false

/-- How many cycles are granted in the course of a run. -/
def grantsIn (s : Split) : List Turn → Nat
  | [] => 0
  | t :: ts => (s.grantsOn t).toNat + (s.turn t).state.grantsIn ts

/-- How often the host was asked for keys, or will be before the tick that is under way is done. -/
def polls (s : Split) : Nat := s.runner.console.polls + s.stage.due

end Split

/-- The host asks for a step. -/
def Turn.asksStep : Turn → Bool
  | host .step => true
  | _ => false

variable {s : Split} {t : Turn} {ts : List Turn}

theorem eq_of_asksStep (h : t.asksStep = true) : t = .host .step := by
  cases t with
  | worker => cases h
  | host c =>
    cases c with
    | step => rfl
    | _ => cases h

/-- Each cycle that is granted asks the host for keys once, and nothing else does. -/
theorem polls_turn (ht : ∀ c, t = .host c → c.fromHost = true) :
    (s.turn t).state.polls = s.polls + (s.grantsOn t).toNat := by
  obtain ⟨x, stage⟩ := s
  cases t with
  | host c =>
    have hpolls : (x.handle c).state.console.polls = x.console.polls := by
      cases c with
      | tick | stop => cases ht _ rfl
      | _ => rfl
    exact congrArg (· + stage.due) hpolls
  | worker =>
    cases stage with
    | idle =>
      rw [turn_of_idle]
      cases hgrants : x.grants <;>
        simp [Split.polls, Split.grantsOn, Stage.due, hgrants, opened, grant]
    | granted =>
      simp only [Split.turn, runCycle_eq, Split.polls, nextConsole]
      cases faultOf? x.nextCycle.result <;> rfl
    | failed f => rfl

theorem polls_run (hts : ∀ c, .host c ∈ ts → c.fromHost = true) :
    (s.run ts).state.polls = s.polls + s.grantsIn ts := by
  induction ts generalizing s with
  | nil => rfl
  | cons t ts ih =>
    have hfirst := polls_turn (s := s) (t := t) fun c hc => hts c (hc ▸ List.mem_cons_self)
    have hrest := ih (s := (s.turn t).state) fun c hc => hts c (List.mem_cons_of_mem t hc)
    rw [hfirst, Nat.add_assoc] at hrest
    exact hrest

/-- **No cycle is lost, and none runs twice.** -/
theorem polls_finish (s : Split) : s.finish.state.console.polls = s.polls := by
  obtain ⟨x, stage⟩ := s
  cases stage with
  | idle | failed => rfl
  | granted =>
    simp only [Split.finish, runCycle_eq, Split.polls, nextConsole]
    cases faultOf? x.nextCycle.result <;> rfl

/-- What the control is after a cycle was granted: a pause uses up a step. -/
theorem control_opened (h : r.grants = true) :
    r.opened.control.paused = r.control.paused ∧
      r.opened.control.steps + r.control.paused.toNat = r.control.steps := by
  have htrue := ((Bool.and_eq_true ..).mp h).2
  change (RunControl.takeCycle _).2.paused = _ ∧ (RunControl.takeCycle _).2.steps + _ = _
  rw [RunControl.takeCycle] at htrue ⊢
  cases hpaused : r.control.paused <;> grind

/-- **Each cycle that is granted in a pause uses up one step**, and the host is the only one to ask
for steps. -/
theorem steps_turn (hpaused : s.runner.control.paused = true)
    (ht : ∀ c, t = .host c → c.fromHost = true) (hresume : t ≠ .host .resume) :
    (s.turn t).state.runner.control.paused = true ∧
      (s.turn t).state.runner.control.steps + (s.grantsOn t).toNat =
        s.runner.control.steps + t.asksStep.toNat := by
  obtain ⟨x, stage⟩ := s
  cases t with
  | host c =>
    cases c with
    | resume => exact absurd rfl hresume
    | tick | stop => cases ht _ rfl
    | step =>
      have hstep : x.control.step = { x.control with steps := x.control.steps + 1 } :=
        if_pos hpaused
      simp only [Split.turn, handle, step, hstep]
      exact ⟨hpaused, rfl⟩
    | pause => exact ⟨rfl, rfl⟩
    | _ => exact ⟨hpaused, rfl⟩
  | worker =>
    cases stage with
    | idle =>
      rw [turn_of_idle]
      cases hgrants : x.grants with
      | false =>
        refine ⟨hpaused, ?_⟩
        simp [Split.grantsOn, Turn.asksStep, hgrants]
      | true =>
        obtain ⟨hpause, hsteps⟩ := control_opened hgrants
        rw [show x.control.paused = true from hpaused] at hpause hsteps
        refine ⟨hpause, ?_⟩
        simpa [Split.grantsOn, Turn.asksStep, hgrants] using hsteps
    | granted =>
      simp only [Split.turn, runCycle_eq]
      exact ⟨hpaused, rfl⟩
    | failed f => exact ⟨hpaused, rfl⟩

/-- **No step is used up twice**, however long the pause is. -/
theorem steps_run (hpaused : s.runner.control.paused = true)
    (hts : ∀ c, .host c ∈ ts → c.fromHost = true) (hresume : .host .resume ∉ ts) :
    (s.run ts).state.runner.control.steps + s.grantsIn ts =
      s.runner.control.steps + ts.countP Turn.asksStep := by
  induction ts generalizing s with
  | nil => rfl
  | cons t ts ih =>
    rw [List.mem_cons, not_or] at hresume
    obtain ⟨hpause, hsteps⟩ :=
      steps_turn hpaused (fun c hc => hts c (hc ▸ List.mem_cons_self)) (Ne.symm hresume.1)
    have hrest := ih hpause (fun c hc => hts c (List.mem_cons_of_mem t hc)) hresume.2
    rw [List.countP_cons, Split.grantsIn]
    change ((s.turn t).state.run ts).state.runner.control.steps + _ = _
    have hasks : (if t.asksStep = true then 1 else 0) = t.asksStep.toNat := by
      cases t.asksStep <;> rfl
    omega

/-- No steps are pending outside a pause. -/
def Settled (r : Runner) : Prop := r.control.paused = false → r.control.steps = 0

theorem settled_turn (h : Settled s.runner) (ht : ∀ c, t = .host c → c.fromHost = true) :
    Settled (s.turn t).state.runner := by
  obtain ⟨x, stage⟩ := s
  cases t with
  | host c =>
    cases c with
    | pause => exact fun hpaused => by cases hpaused
    | resume => exact fun _ => rfl
    | step =>
      change Settled { x with control := x.control.step }
      cases hpaused : x.control.paused with
      | false =>
        rw [RunControl.step, if_neg (by simp [hpaused])]
        exact h
      | true =>
        rw [RunControl.step, if_pos hpaused]
        exact fun hnot => by cases hpaused.symm.trans hnot
    | tick | stop => cases ht _ rfl
    | _ => exact h
  | worker =>
    cases stage with
    | idle =>
      rw [turn_of_idle]
      cases hgrants : x.grants with
      | false => exact h
      | true =>
        obtain ⟨hpause, hsteps⟩ := control_opened hgrants
        intro hpaused
        have hsettled := h (hpause ▸ hpaused)
        change x.control.steps = 0 at hsettled
        change x.opened.control.steps = 0
        omega
    | granted =>
      simp only [Split.turn, runCycle_eq]
      exact h
    | failed f => exact h

theorem settled_run (h : Settled s.runner) (hts : ∀ c, .host c ∈ ts → c.fromHost = true) :
    Settled (s.run ts).state.runner := by
  induction ts generalizing s with
  | nil => exact h
  | cons t ts ih =>
    refine ih (settled_turn h fun c hc => hts c (hc ▸ List.mem_cons_self)) ?_
    exact fun c hc => hts c (List.mem_cons_of_mem t hc)

theorem Split.state_run_append (s : Split) (ts us : List Turn) :
    (s.run (ts ++ us)).state = ((s.run ts).state.run us).state := by
  induction ts generalizing s with
  | nil => rfl
  | cons t ts ih => exact ih _

/-- **After a pause**, and until the runner is resumed or asked for a step, no cycle runs but one
that was granted before. -/
theorem polls_after_pause (h : Settled s.runner) (hrunning : s.runner.control.paused = false)
    (hts : ∀ c, .host c ∈ ts → c.fromHost = true) (hresume : .host .resume ∉ ts)
    (hstep : .host .step ∉ ts) :
    (s.run (.host .pause :: ts)).state.polls = s.polls := by
  let paused := (s.turn (.host .pause)).state
  have hpolls : (paused.run ts).state.polls = paused.polls + paused.grantsIn ts := polls_run hts
  have hsteps : (paused.run ts).state.runner.control.steps + paused.grantsIn ts =
      paused.runner.control.steps + ts.countP Turn.asksStep := steps_run rfl hts hresume
  have hnone : ts.countP Turn.asksStep = 0 := by
    refine List.countP_eq_zero.mpr fun t ht hasks => ?_
    rw [eq_of_asksStep hasks] at ht
    exact hstep ht
  have hsettled : paused.runner.control.steps = 0 := h hrunning
  have hgrants : paused.grantsIn ts = 0 := by omega
  rw [hgrants] at hpolls
  exact hpolls

/-- **Ticks that are interrupted are as good as atomic ones.**  Take a runner from its start, for every
machine and every answer of the host, and let calls of the host fall between the sections of its
ticks in any way, whether they change the runner or only look at it, or at its machine.  Then there is
a run with the same calls, in another order, and with whole ticks, in which every call has the same
answer; and once the tick that is under way is done, everything is the same: the machine, the control,
the frames, how often the host was asked for keys, and the records.  Each cycle that is granted runs
once.  As long as a paused runner is not resumed, each of them uses up one of the steps that were
asked for, and the rest is pending.  And after a runner was paused, and until it is resumed or asked
for a step, no cycle runs but one that was granted before. -/
theorem interrupted_ticks_serialize (p : Machine) (keys : Keypad) (ts : List Turn)
    (hts : ∀ c, .host c ∈ ts → c.fromHost = true) :
    let r := (start p keys).state
    let s := Split.mk r .idle
    let o := s.run ts
    (∃ cs, (r.run cs).state = o.state.finish.state ∧ o.result.Perm (r.hostTalk cs) ∧
      (r.run cs).log = o.log ++ o.state.finish.log) ∧
    o.state.finish.state.console.polls = s.grantsIn ts ∧
    (∀ us vs, ts = us ++ vs → (s.run us).state.runner.control.paused = true →
      .host .resume ∉ vs →
      o.state.runner.control.steps + (s.run us).state.grantsIn vs =
        (s.run us).state.runner.control.steps + vs.countP Turn.asksStep) ∧
    ∀ us vs, ts = us ++ .host .pause :: vs → (s.run us).state.runner.control.paused = false →
      .host .resume ∉ vs → .host .step ∉ vs →
      o.state.runner.console.polls + o.state.stage.due =
        (s.run us).state.runner.console.polls + (s.run us).state.stage.due := by
  intro r s o
  refine ⟨?serial, ?cycles, ?steps, ?pause⟩
  case serial =>
    have hstart : Serial r ⟨s, [], []⟩ := .idle [] rfl rfl (.refl _) rfl
    exact (hstart.run hts).finish
  case cycles =>
    have hpolls : o.state.polls = s.polls + s.grantsIn ts := polls_run hts
    rw [polls_finish, hpolls]
    exact Nat.zero_add _
  case steps =>
    rintro us vs rfl hpaused hresume
    have hstate : o.state = ((s.run us).state.run vs).state := s.state_run_append us vs
    rw [hstate]
    exact steps_run hpaused (fun c hc => hts c (List.mem_append_right us hc)) hresume
  case pause =>
    rintro us vs rfl hrunning hresume hstep
    have hstate : o.state = ((s.run us).state.run (.host .pause :: vs)).state :=
      s.state_run_append us _
    have hsettled : Settled (s.run us).state.runner :=
      settled_run (fun _ => rfl) fun c hc => hts c (List.mem_append_left _ hc)
    rw [hstate]
    refine polls_after_pause hsettled hrunning (fun c hc => hts c ?_) hresume hstep
    exact List.mem_append_right us (List.mem_cons_of_mem _ hc)

/-- A machine whose first cycle fails. -/
@[irreducible]
def halting : Machine := ((Machine.new default default none).load [0xFF, 0xFF]).state

/-- The machine that an answer shows. -/
def Answer.inspected? : Answer → Option Machine
  | .inspected m => some m
  | _ => none

theorem interrupted_ticks_serialize_halting :
    let ts := [Turn.worker, .host .pause, .host .inspect, .host (.machine .tickDelay), .worker,
      .host .fault, .host .inspect, .host .step, .worker]
    let r := (start halting .released).state
    let o := (Split.mk r .idle).run ts
    (∃ cs, (r.run cs).state = o.state.finish.state ∧ o.result.Perm (r.hostTalk cs)) ∧
      (o.result.filterMap fun p => p.2.inspected?.map (·.opcode)) = [⟨0⟩, ⟨0xFFFF⟩] ∧
      o.state.runner.console.polls = 1 ∧
      o.state.runner.control = ⟨true, 1, some (.invalidOpcode ⟨0xFFFF⟩)⟩ := by
  intro ts r o
  have hts : ∀ c, .host c ∈ ts → c.fromHost = true := by
    intro c hc
    simp only [ts, List.mem_cons, List.not_mem_nil, reduceCtorEq, Turn.host.injEq, false_or,
      or_false] at hc
    rcases hc with rfl | rfl | rfl | rfl | rfl | rfl <;> rfl
  obtain ⟨⟨cs, hstate, hsaid, -⟩, -⟩ := interrupted_ticks_serialize halting .released ts hts
  exact ⟨⟨cs, hstate, hsaid⟩, by decide +kernel, by decide +kernel, by decide +kernel⟩

end Runner
end Chip8
