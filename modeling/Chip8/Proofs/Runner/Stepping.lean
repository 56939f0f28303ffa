import Chip8.Proofs.Runner.Replay

/-!
# Pauses and single steps

While a runner is paused its ticks run no cycles of their own.  The host asks for single cycles
instead, and each of them is run by one tick.  The control of a runner keeps no more than how many
of them are pending.  This file keeps the books next to it: a `Runner.Ledger` has the place of
every call that asked a paused runner for a step, and of every tick that ran a cycle in a pause,
since the runner was last resumed.

The ledger takes nothing from the control.  Whether the runner is paused it knows from the calls,
and whether a tick ran a cycle from the host, who is asked for keys with each of them.  That the
two agree is the invariant `Runner.Ledger.Balanced`: the steps that are pending are those that were
asked for less those that were used, and outside a pause the ledger is empty.  Every call keeps it
(`Runner.Ledger.Balanced.handle`), and so does every run (`Runner.Ledger.Balanced.run`).

## What is here

* `Runner.runsOnTick` — whether a tick would run a cycle, as the host sees it.
* `Runner.Ledger`, `Runner.ledger` — the books, and how a list of calls changes them.
* `Runner.Ledger.Balanced` — what the books and the control have in common.
* `Ledger.Balanced.used_of_ticks`, `Ledger.Balanced.exists_used` — steps that were asked for are
  used when enough ticks follow, each by a tick of its own.
* `Runner.steps_run_le` — how many steps can be pending.
* `Runner.step_accounting` — all of it for a runner from its start.
-/

set_option autoImplicit false

namespace Chip8
namespace Runner

/-! ## Cycles of ticks -/

/-- Whether a tick would run a cycle: the host is asked for its keys then. -/
def runsOnTick (r : Runner) : Bool := r.console.polls < r.tick.state.console.polls

theorem runsOnTick_eq_grants (r : Runner) : r.runsOnTick = r.grants := by
  rw [runsOnTick]
  rcases h : r.grants with - | -
  · rw [tick_of_not_grants h]
    exact decide_eq_false (Nat.lt_irrefl _)
  · rw [tick_of_grants h]
    exact decide_eq_true (Nat.lt_succ_self _)

/-- What a runner needs to run a cycle with the next tick. -/
theorem runsOnTick_iff (r : Runner) :
    r.runsOnTick = true ↔ r.worker.alive = true ∧ r.control.fault = none ∧
      (r.control.paused = false ∨ 0 < r.control.steps) := by
  rw [runsOnTick_eq_grants, grants, Bool.and_eq_true]
  refine and_congr_right fun _ => ?_
  rw [RunControl.takeCycle]
  rcases hfault : r.control.fault with - | f
  · cases hpaused : r.control.paused with
    | false => simp
    | true => by_cases hsteps : 0 < r.control.steps <;> simp [hsteps]
  · simp

/-! ## The ledger -/

/-- What a host asked of a paused runner, and what it got, since the last time the runner was
resumed.  Calls are told apart by their place in the list of all calls. -/
structure Ledger where
  /-- How many calls there were. -/
  calls : Nat := 0
  /-- Whether the last of the calls that pause and resume was one that pauses. -/
  paused : Bool := false
  /-- The calls that asked for a step in a pause. -/
  asked : List Nat := []
  /-- The ticks that ran a cycle in a pause. -/
  used : List Nat := []
deriving DecidableEq

/-- The ledger after a call; `ran` is whether a cycle was run. -/
def Ledger.enter (l : Ledger) (ran : Bool) : Call → Ledger
  | .pause => { l with calls := l.calls + 1, paused := true }
  | .resume => { calls := l.calls + 1 }
  | .step =>
    { l with calls := l.calls + 1, asked := l.asked ++ if l.paused then [l.calls] else [] }
  | .tick =>
    { l with calls := l.calls + 1, used := l.used ++ if l.paused && ran then [l.calls] else [] }
  | _ => { l with calls := l.calls + 1 }

/-- The ledger after a list of calls. -/
def ledger (r : Runner) (l : Ledger) : List Call → Ledger
  | [] => l
  | c :: cs => (r.handle c).state.ledger (l.enter r.runsOnTick c) cs

theorem ledger_append (r : Runner) (l : Ledger) (cs ds : List Call) :
    r.ledger l (cs ++ ds) = (r.run cs).state.ledger (r.ledger l cs) ds := by
  induction cs generalizing r l with
  | nil => rfl
  | cons c cs ih => exact ih (r.handle c).state (l.enter r.runsOnTick c)

/-! ## Places -/

/-- These are places of one call in the past since the last time the runner was resumed, each named
once and in order. -/
structure PlacesOf (c : Call) (past : List Call) (places : List Nat) : Prop where
  call : ∀ t ∈ places, past[t]? = some c
  since : ∀ t ∈ places, .resume ∉ past.drop t
  increasing : places.Pairwise (· < ·)

namespace PlacesOf

variable {c : Call} {past : List Call} {places : List Nat}

theorem nil (c : Call) (past : List Call) : PlacesOf c past [] := ⟨by simp, by simp, .nil⟩

theorem lt (h : PlacesOf c past places) {t : Nat} (ht : t ∈ places) : t < past.length :=
  (List.getElem?_eq_some_iff.mp (h.call t ht)).1

/-- The past stays as it is when another call is made. -/
theorem keep (h : PlacesOf c past places) {d : Call} (hd : .resume ≠ d) :
    PlacesOf c (past ++ [d]) places where
  call t ht := (List.getElem?_append_left (h.lt ht)).trans (h.call t ht)
  since t ht := by
    rw [List.drop_append_of_le_length (Nat.le_of_lt (h.lt ht)), List.mem_append, not_or,
      List.mem_singleton]
    exact ⟨h.since t ht, hd⟩
  increasing := h.increasing

/-- The call itself, made once more. -/
theorem snoc (h : PlacesOf c past places) (hc : .resume ≠ c) :
    PlacesOf c (past ++ [c]) (places ++ [past.length]) where
  call t ht := by
    rcases List.mem_append.mp ht with ht | ht
    · exact (h.keep hc).call t ht
    · rw [List.mem_singleton.mp ht]
      exact List.getElem?_concat_length
  since t ht := by
    rcases List.mem_append.mp ht with ht | ht
    · exact (h.keep hc).since t ht
    · rwa [List.mem_singleton.mp ht, List.drop_left, List.mem_singleton]
  increasing := by
    rw [List.pairwise_append]
    refine ⟨h.increasing, List.pairwise_singleton .., fun t ht u hu => ?_⟩
    rw [List.mem_singleton.mp hu]
    exact h.lt ht

end PlacesOf

/-! ## The books and the control -/

/-- A ledger agrees with the control of a runner, after the calls in its past. -/
structure Ledger.Balanced (l : Ledger) (past : List Call) (c : RunControl) : Prop where
  calls : l.calls = past.length
  paused : l.paused = c.paused
  /-- Nothing is on the books outside a pause. -/
  outside : l.paused = false → l.asked = [] ∧ l.used = []
  /-- What was asked for and not used is pending. -/
  pending : l.used.length + c.steps = l.asked.length
  asked : PlacesOf .step past l.asked
  used : PlacesOf .tick past l.used
  /-- Every step is used after it was asked for. -/
  later : ∀ (k t u : Nat), l.asked[k]? = some t → l.used[k]? = some u → t < u

namespace Ledger

variable {l : Ledger} {past : List Call} {c : RunControl}

/-- A call that neither the books nor the control take notice of. -/
theorem Balanced.keep (h : l.Balanced past c) {d : Call} (hd : .resume ≠ d)
    (fault : Option Fault) :
    ({ l with calls := l.calls + 1 } : Ledger).Balanced (past ++ [d]) { c with fault } where
  calls := by rw [h.calls, List.length_append, List.length_singleton]
  paused := h.paused
  outside := h.outside
  pending := h.pending
  asked := h.asked.keep hd
  used := h.used.keep hd
  later := h.later

theorem Balanced.pause (h : l.Balanced past c) (ran : Bool) :
    (l.enter ran .pause).Balanced (past ++ [.pause]) c.pause :=
  { h.keep Call.noConfusion c.fault with
    paused := rfl
    outside := fun hpaused => by cases hpaused }

theorem Balanced.resume (h : l.Balanced past c) (ran : Bool) :
    (l.enter ran .resume).Balanced (past ++ [.resume]) c.resume where
  calls := by rw [List.length_append, List.length_singleton, ← h.calls]; rfl
  paused := rfl
  outside _ := ⟨rfl, rfl⟩
  pending := rfl
  asked := .nil ..
  used := .nil ..
  later k t u ht _ := by simp [enter] at ht

/-- A step is asked for, behind all those that were used. -/
theorem Balanced.ask (h : l.Balanced past c) (hpaused : l.paused = true) :
    ({ l with calls := l.calls + 1, asked := l.asked ++ [l.calls] } : Ledger).Balanced
      (past ++ [.step]) { c with steps := c.steps + 1 } :=
  { h.keep Call.noConfusion c.fault with
    outside := fun hnot => by cases hpaused.symm.trans hnot
    pending := by rw [List.length_append, List.length_singleton, ← h.pending, Nat.add_assoc]
    asked := h.calls ▸ h.asked.snoc Call.noConfusion
    later := fun k t u ht hu => by
      have hk : k < l.used.length := (List.getElem?_eq_some_iff.mp hu).1
      have hlen : l.used.length ≤ l.asked.length := h.pending ▸ Nat.le_add_right ..
      rw [List.getElem?_append_left (by omega)] at ht
      exact h.later k t u ht hu }

/-- A step is used, after everything that was asked for. -/
theorem Balanced.use (h : l.Balanced past c) (hpaused : l.paused = true) (hsteps : 0 < c.steps)
    (fault : Option Fault) :
    ({ l with calls := l.calls + 1, used := l.used ++ [l.calls] } : Ledger).Balanced
      (past ++ [.tick]) { c with steps := c.steps - 1, fault } :=
  { h.keep Call.noConfusion fault with
    outside := fun hnot => by cases hpaused.symm.trans hnot
    pending := by
      rw [List.length_append, List.length_singleton, ← h.pending]
      dsimp only
      omega
    used := h.calls ▸ h.used.snoc Call.noConfusion
    later := fun k t u ht hu => by
      rcases Nat.lt_or_ge k l.used.length with hk | hk
      · rw [List.getElem?_append_left hk] at hu
        exact h.later k t u ht hu
      · rw [List.getElem?_append_right hk] at hu
        have hnow := List.mem_singleton.mp (List.mem_of_getElem? hu)
        rw [hnow, h.calls]
        exact h.asked.lt (List.mem_of_getElem? ht) }

theorem Balanced.step (h : l.Balanced past c) (ran : Bool) :
    (l.enter ran .step).Balanced (past ++ [.step]) c.step := by
  obtain ⟨calls, paused, asked, used⟩ := l
  obtain ⟨paused', steps, fault⟩ := c
  obtain rfl : paused = paused' := h.paused
  cases paused with
  | false => simpa [enter, RunControl.step] using h.keep Call.noConfusion fault
  | true => exact h.ask rfl

/-- A tick uses a step if it runs a cycle in a pause. -/
theorem Balanced.tick (h : l.Balanced past c) {ran : Bool} (fault : Option Fault)
    (hran : ran = true → c.paused = false ∨ 0 < c.steps) :
    (l.enter ran .tick).Balanced (past ++ [.tick])
      { c with steps := if c.paused && ran then c.steps - 1 else c.steps, fault } := by
  obtain ⟨calls, paused, asked, used⟩ := l
  obtain ⟨paused', steps, fault'⟩ := c
  obtain rfl : paused = paused' := h.paused
  rcases huses : paused && ran with - | -
  · simpa [enter, huses] using h.keep Call.noConfusion fault
  · obtain ⟨rfl, rfl⟩ := (Bool.and_eq_true ..).mp huses
    exact h.use rfl ((hran rfl).resolve_left Bool.noConfusion) fault

end Ledger

variable {r : Runner} {l : Ledger} {past : List Call}

/-- What a tick leaves of the control: the pause as it was, and one step less if it used one. -/
theorem control_tick (r : Runner) :
    ∃ fault, r.tick.state.control =
      { r.control with
        steps := if r.control.paused && r.runsOnTick then r.control.steps - 1 else r.control.steps
        fault } := by
  rw [runsOnTick_eq_grants]
  rcases h : r.grants with - | -
  · refine ⟨r.control.fault, ?_⟩
    rw [tick_of_not_grants h, Bool.and_false]
    rfl
  · refine ⟨faultOf? r.nextCycle.result, ?_⟩
    rw [tick_of_grants h, Bool.and_true]
    have htrue := ((Bool.and_eq_true ..).mp h).2
    rw [RunControl.takeCycle] at htrue ⊢
    rw [fault_of_grants h] at htrue ⊢
    cases hpaused : r.control.paused <;> grind

/-- **Every call keeps the books balanced.** -/
theorem Ledger.Balanced.handle (h : l.Balanced past r.control) (c : Call) :
    (l.enter r.runsOnTick c).Balanced (past ++ [c]) (r.handle c).state.control := by
  cases c with
  | tick =>
    obtain ⟨fault, hcontrol⟩ := r.control_tick
    change (l.enter r.runsOnTick .tick).Balanced _ r.tick.state.control
    rw [hcontrol]
    exact h.tick fault fun hran => (r.runsOnTick_iff.mp hran).2.2
  | pause => exact h.pause _
  | resume => exact h.resume _
  | step => exact h.step _
  | _ => exact h.keep Call.noConfusion r.control.fault

/-- **Every run keeps the books balanced.** -/
theorem Ledger.Balanced.run (h : l.Balanced past r.control) (cs : List Call) :
    (r.ledger l cs).Balanced (past ++ cs) (r.run cs).state.control := by
  induction cs generalizing r l past with
  | nil => rwa [List.append_nil]
  | cons c cs ih =>
    rw [← List.singleton_append, ← List.append_assoc]
    exact ih (h.handle c)

/-- A new runner has empty books. -/
theorem balanced_start (p : Machine) (keys : Keypad) :
    Ledger.Balanced {} [] (start p keys).state.control where
  calls := rfl
  paused := rfl
  outside _ := ⟨rfl, rfl⟩
  pending := rfl
  asked := .nil ..
  used := .nil ..
  later k t u ht _ := by simp at ht

/-! ## Steps that wait for a tick -/

/-- The call is a tick. -/
def Call.isTick : Call → Bool
  | .tick => true
  | _ => false

/-- The call asks for a step. -/
def Call.isStep : Call → Bool
  | .step => true
  | _ => false

/-- Until the runner is resumed nothing is struck off the books. -/
theorem Ledger.prefix_enter (l : Ledger) (ran : Bool) {c : Call} (hc : .resume ≠ c) :
    l.asked <+: (l.enter ran c).asked ∧ l.used <+: (l.enter ran c).used := by
  cases c with
  | resume => exact absurd rfl hc
  | step => exact ⟨List.prefix_append .., List.prefix_rfl⟩
  | tick => exact ⟨List.prefix_rfl, List.prefix_append ..⟩
  | _ => exact ⟨List.prefix_rfl, List.prefix_rfl⟩

theorem prefix_ledger (r : Runner) (l : Ledger) {ds : List Call} (hds : .resume ∉ ds) :
    l.asked <+: (r.ledger l ds).asked ∧ l.used <+: (r.ledger l ds).used := by
  induction ds generalizing r l with
  | nil => exact ⟨List.prefix_rfl, List.prefix_rfl⟩
  | cons d ds ih =>
    rw [List.mem_cons, not_or] at hds
    obtain ⟨hasked, hused⟩ := l.prefix_enter r.runsOnTick hds.1
    obtain ⟨hasked', hused'⟩ := ih (r.handle d).state (l.enter r.runsOnTick d) hds.2
    exact ⟨hasked.trans hasked', hused.trans hused'⟩

/-- A tick uses a step if one is pending and the runner still runs. -/
theorem Ledger.Balanced.used_tick (h : l.Balanced past r.control) (halive : r.worker.alive = true)
    (hfault : r.control.fault = none) (hpending : l.used.length < l.asked.length) :
    (l.enter r.runsOnTick .tick).used.length = l.used.length + 1 := by
  have hsteps : 0 < r.control.steps := by
    have := h.pending
    omega
  have hpaused : l.paused = true := by
    rcases hnot : l.paused with - | -
    · rw [(h.outside hnot).1] at hpending
      exact absurd hpending (Nat.not_lt_zero _)
    · rfl
  have hruns : r.runsOnTick = true := r.runsOnTick_iff.mpr ⟨halive, hfault, .inr hsteps⟩
  rw [enter, hpaused, hruns, Bool.and_true, if_pos rfl, List.length_append, List.length_singleton]

/-- **Steps that were asked for are used when enough ticks follow**, one with each tick, as long as
the runner is neither resumed nor stopped and does not halt. -/
theorem Ledger.Balanced.used_of_ticks (h : l.Balanced past r.control)
    (halive : r.worker.alive = true) {ds : List Call} (hresume : .resume ∉ ds) (hstop : .stop ∉ ds)
    (hfault : (r.run ds).state.control.fault = none) :
    min l.asked.length (l.used.length + ds.countP Call.isTick) ≤ (r.ledger l ds).used.length := by
  induction ds generalizing r l past with
  | nil => exact Nat.min_le_right ..
  | cons d ds ih =>
    have hrest := (r.prefix_ledger l hresume).2.length_le
    have hstays : r.control.fault = none := by
      refine Option.eq_none_iff_forall_ne_some.mpr fun f hf => ?_
      rw [fault_run_of_halted hf] at hfault
      cases hfault
    have halive' : (r.handle d).state.worker.alive = true :=
      alive_run halive fun hd => hstop (List.mem_cons.mpr (.inl (List.mem_singleton.mp hd)))
    rw [List.mem_cons, not_or] at hresume hstop
    have hafter := ih (h.handle d) halive' hresume.2 hstop.2 hfault
    have hasked := (l.prefix_enter r.runsOnTick hresume.1).1.length_le
    have hused := (l.prefix_enter r.runsOnTick hresume.1).2.length_le
    rw [List.countP_cons]
    rcases hd : d.isTick with - | -
    · refine Nat.le_trans ?_ hafter
      simp only [Bool.false_eq_true, if_false]
      omega
    · rcases Nat.lt_or_ge l.used.length l.asked.length with hpending | hdone
      · obtain rfl : d = .tick := by cases d <;> first | rfl | cases hd
        have hone := h.used_tick halive hstays hpending
        refine Nat.le_trans ?_ hafter
        simp only [if_true]
        omega
      · omega

/-- **Every step finds its tick**, and the tick comes later than the call that asked for it. -/
theorem Ledger.Balanced.exists_used (h : l.Balanced past r.control)
    (halive : r.worker.alive = true) {ds : List Call} (hresume : .resume ∉ ds) (hstop : .stop ∉ ds)
    (hfault : (r.run ds).state.control.fault = none) {k t : Nat} (ht : l.asked[k]? = some t)
    (hticks : k < l.used.length + ds.countP Call.isTick) :
    ∃ u, (r.ledger l ds).used[k]? = some u ∧ t < u := by
  have hk : k < l.asked.length := (List.getElem?_eq_some_iff.mp ht).1
  have hk' : k < (r.ledger l ds).used.length := by
    have hused := h.used_of_ticks halive hresume hstop hfault
    omega
  have hu := List.getElem?_eq_getElem hk'
  have hasked : (r.ledger l ds).asked[k]? = some t := by
    rw [← ht, List.getElem?_eq_getElem hk]
    exact List.prefix_iff_getElem?.mp (r.prefix_ledger l hresume).1 k hk
  exact ⟨_, hu, (h.run ds).later k t _ hasked hu⟩

/-! ## The pending steps -/

theorem steps_handle_le (r : Runner) (c : Call) :
    (r.handle c).state.control.steps ≤ r.control.steps + if c.isStep then 1 else 0 := by
  cases c with
  | tick =>
    obtain ⟨fault, hcontrol⟩ := r.control_tick
    change r.tick.state.control.steps ≤ r.control.steps
    rw [hcontrol]
    dsimp only
    split <;> omega
  | step =>
    change (RunControl.step r.control).steps ≤ r.control.steps + 1
    rw [RunControl.step]
    split
    · exact Nat.le_refl _
    · exact Nat.le_succ _
  | resume => exact Nat.zero_le _
  | _ => exact Nat.le_refl _

/-- No more steps are pending than were ever asked for, so that a counter of 64 bits does not wrap
before the host has asked for `2 ^ 64` of them. -/
theorem steps_run_le (r : Runner) (cs : List Call) :
    (r.run cs).state.control.steps ≤ r.control.steps + cs.countP Call.isStep := by
  induction cs generalizing r with
  | nil => exact Nat.le_refl _
  | cons c cs ih =>
    have hfirst := r.steps_handle_le c
    have hrest : (r.run (c :: cs)).state.control.steps ≤ _ := ih (r.handle c).state
    rw [List.countP_cons]
    omega

/-! ## From the start -/

/-- **Every step is accounted for**, in every list of calls to a runner, and after it.

A tick runs a cycle exactly if the runner is alive, has not halted, and is not paused or has used
fewer steps than it was asked for in this pause; it runs one cycle or does nothing at all.  Never
are more steps used than asked for.  The step that was asked for as number `k` is used by the tick
that ran a cycle as number `k`, which came later, and it will be used once there are enough ticks,
unless the runner is resumed first.  A step outside a pause does nothing, and neither does a second
pause.  Whatever is pending when the runner is resumed makes no difference afterwards. -/
theorem step_accounting (p : Machine) (keys : Keypad) (cs : List Call) :
    let r := ((start p keys).andThen fun r => r.run cs).state
    let l := (start p keys).state.ledger {} cs
    (r.runsOnTick = true ↔ r.worker.alive = true ∧ r.control.fault = none ∧
      (l.paused = false ∨ l.used.length < l.asked.length)) ∧
    (r.runsOnTick = true →
      r.tick.state.machine = (r.machine.setKeys r.console.keys).cycle.state) ∧
    (r.runsOnTick = false → r.tick = ⟨r, (), []⟩) ∧
    (.stop ∉ cs → r.worker.alive = true) ∧
    l.paused = r.control.paused ∧
    l.used.length ≤ l.asked.length ∧
    PlacesOf .step cs l.asked ∧
    PlacesOf .tick cs l.used ∧
    (∀ (k t u : Nat), l.asked[k]? = some t → l.used[k]? = some u → t < u) ∧
    (∀ ds : List Call, .resume ∉ ds → .stop ∉ cs ++ ds →
      (r.run ds).state.control.fault = none →
        let l' := (start p keys).state.ledger {} (cs ++ ds)
        l.asked <+: l'.asked ∧ l.used <+: l'.used ∧
          ∀ k t, l.asked[k]? = some t → k < l.used.length + ds.countP Call.isTick →
            ∃ u, l'.used[k]? = some u ∧ t < u) ∧
    (l.paused = false → l.asked = [] ∧ l.used = [] ∧ r.step = r) ∧
    (l.paused = true → r.pause = r) ∧
    (∀ n, { r with control := { r.control with steps := n } }.resume = r.resume) ∧
    l.used.length + r.control.steps = l.asked.length ∧
    r.control.steps ≤ cs.countP Call.isStep := by
  intro r l
  have h : l.Balanced cs r.control := (balanced_start p keys).run cs
  have hpending := h.pending
  have halive : .stop ∉ cs → r.worker.alive = true := fun hcs => alive_run rfl hcs
  refine ⟨?runs, fun hruns => ?cycle, fun hruns => ?nothing, halive, h.paused, by omega, h.asked,
    h.used, h.later, fun ds hresume hstop hfault => ?waits, fun hpaused => ?outside,
    fun hpaused => ?inside, fun n => rfl, hpending, ?bound⟩
  case runs =>
    have hsome : 0 < r.control.steps ↔ l.used.length < l.asked.length := by omega
    rw [runsOnTick_iff, h.paused, hsome]
  case cycle =>
    rw [runsOnTick_eq_grants] at hruns
    rw [tick_of_grants hruns]
    rfl
  case nothing =>
    rw [runsOnTick_eq_grants] at hruns
    exact tick_of_not_grants hruns
  case waits =>
    intro l'
    have hl' : l' = r.ledger l ds := ledger_append ..
    rw [List.mem_append, not_or] at hstop
    obtain ⟨hasked, hused⟩ := r.prefix_ledger l hresume
    rw [hl']
    exact ⟨hasked, hused, fun k t ht hticks =>
      h.exists_used (halive hstop.1) hresume hstop.2 hfault ht hticks⟩
  case outside =>
    refine ⟨(h.outside hpaused).1, (h.outside hpaused).2, ?_⟩
    rw [h.paused] at hpaused
    rw [step, RunControl.step, hpaused]
    rfl
  case inside =>
    rw [h.paused] at hpaused
    rw [pause, RunControl.pause, ← hpaused]
  case bound =>
    have hsteps := (start p keys).state.steps_run_le cs
    have hnone : (start p keys).state.control.steps = 0 := rfl
    rwa [hnone, Nat.zero_add] at hsteps

-- three steps, of which one comes too early and one is dropped when the runner is resumed
example :
    (start default .released).state.ledger {}
      [.step, .pause, .step, .tick, .tick, .step, .pause, .resume, .pause, .tick, .step, .tick] =
        ⟨12, true, [10], [11]⟩ := by decide +kernel

end Runner
end Chip8
