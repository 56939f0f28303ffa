import Chip8.Proofs.Timer.Beeps

/-!
# The history of a timer

A timer can be set and counted down from many places: by its owner, through any handle that was given
out for it, through clones of these, and by its worker.  All of them act on one value, so what it shows
is settled by the order in which they act: it is what was written last, less one for each count since
then, and never less than zero.

What belongs to the timer can be told from the history alone, without looking at any value.  A handle
goes back to the timer, or else to a value of its own, and a clone goes where the original goes
(`Derived`).  The worker counts if the timer was last started and not stopped (`startedLast`).

## What is here

* `TimerBoard.lineage`, `TimerBoard.Derived`, `TimerBoard.startedLast` — what a history says about
  handles and about the worker.
* `TimerBoard.chronicle` — the steps on the timer in the course of a history.
* `TimerBoard.Traced`, `Traced.act`, `Traced.run` — a board that has the handles and the worker that
  its history says.
* `TimerBoard.Concerns` — the operations on the timer and its handles.
* `TimerBoard.timer_history` — what is read, and what is left alone.
-/

set_option autoImplicit false

namespace Chip8

/-! ## Steps without polls -/

/-- **A value that is only counted down** ends as far below the start as there are counts, or at
zero. -/
theorem toNat_level {value : UInt8} {steps : List PollStep} (hset : ∀ w, .set w ∉ steps)
    (hpoll : ∀ k, .poll k ∉ steps) :
    (level value steps).toNat = value.toNat - steps.count .count := by
  induction steps generalizing value with
  | nil => rfl
  | cons s steps ih =>
    have hset' : ∀ w, .set w ∉ steps := fun w hw => hset w (List.mem_cons_of_mem s hw)
    have hpoll' : ∀ k, .poll k ∉ steps := fun k hk => hpoll k (List.mem_cons_of_mem s hk)
    cases s with
    | set w => exact absurd List.mem_cons_self (hset w)
    | poll k => exact absurd List.mem_cons_self (hpoll k)
    | count =>
      change (level (countDown value) steps).toNat = _
      rw [ih hset' hpoll', toNat_countDown, List.count_cons_self]
      omega

namespace TimerBoard

/-- The events of speakers; all others are operations on timers and handles. -/
def Event.ofSpeaker : Event → Bool
  | .startSpeaker _ _ | .pollSpeaker _ | .stopSpeaker _ => true
  | _ => false

/-! ## What a history says -/

/-- What is known about the handles after an event: for each of them whether it goes back to the
timer. -/
def descend (known : List Bool) : Event → List Bool
  | .addHandle => known ++ [true]
  | .cloneHandle i => known ++ [known[i]?.getD true]
  | .addSeparate _ => known ++ [false]
  | _ => known

/-- For each handle in the order in which they were given out, whether it goes back to the timer.  The
first one is the timer's own. -/
def lineage (es : List Event) : List Bool := es.foldl descend [true]

/-- **A handle is derived from the timer**; a number that was not given out means the timer itself. -/
def Derived (es : List Event) (i : Nat) : Prop := (lineage es)[i]?.getD true = true

instance (es : List Event) (i : Nat) : Decidable (Derived es i) :=
  inferInstanceAs (Decidable (_ = true))

/-- Whether the timer runs after an event. -/
def switch (on : Bool) : Event → Bool
  | .start => true
  | .stop => false
  | _ => on

/-- Whether the latest start or stop is a start. -/
def startedLast (es : List Event) : Bool := es.foldl switch false

/-- What an event does to the timer after some history. -/
def stepAfter (past : List Event) : Event → Option PollStep
  | .tick => if startedLast past then some .count else none
  | .write i value => if Derived past i then some (.set value) else none
  | .take i => if Derived past i then some (.set 0) else none
  | .decrement i => if Derived past i then some .count else none
  | _ => none

/-- The steps on the timer in the course of further events. -/
def chronicle (past : List Event) : List Event → List PollStep
  | [] => []
  | e :: es => (stepAfter past e).toList ++ chronicle (past ++ [e]) es

/-- **An event concerns the timer or one of its handles**, and nothing else. -/
def Concerns (past : List Event) : Event → Prop
  | .start | .stop | .tick | .addHandle => True
  | .write i _ | .take i | .decrement i | .cloneHandle i => Derived past i
  | _ => False

theorem poll_notMem_chronicle (k : Nat) (past es : List Event) : .poll k ∉ chronicle past es := by
  induction es generalizing past with
  | nil => exact List.not_mem_nil
  | cons e es ih =>
    have hstep : stepAfter past e ≠ some (.poll k) := by
      cases e with
      | tick | write | take | decrement =>
        simp only [stepAfter]
        split <;> simp
      | _ => simp [stepAfter]
    intro h
    obtain h | h := List.mem_append.1 h
    · exact hstep (Option.mem_toList.1 h)
    · exact ih _ h

/-! ## Boards and their histories -/

/-- Whether a handle goes back to the timer. -/
def Handle.goesBack : Handle → Bool
  | .timer => true
  | .separate _ => false

/-- **A board has the handles and the worker that its history says.** -/
structure Traced (b : TimerBoard) (past : List Event) : Prop where
  handles : b.handles.map Handle.goesBack = lineage past
  alive : b.timer.worker.alive = startedLast past

variable {b : TimerBoard} {past es : List Event} {e : Event} {i : Nat}

theorem traced_new (interval : Nat) : (new interval).Traced [] := ⟨rfl, rfl⟩

theorem handles_write (b : TimerBoard) (h : Handle) (value : UInt8) :
    (b.write h value).handles = b.handles := by
  cases h <;> rfl

theorem worker_write (b : TimerBoard) (h : Handle) (value : UInt8) :
    (b.write h value).timer.worker = b.timer.worker := by
  cases h <;> rfl

/-- Handles are given out as `descend` says. -/
theorem goesBack_act (he : e.ofSpeaker = false) :
    (b.act e).handles.map Handle.goesBack = descend (b.handles.map Handle.goesBack) e := by
  cases e with
  | write | take | decrement => exact congrArg (List.map Handle.goesBack) (handles_write _ _ _)
  | addHandle | addSeparate => exact List.map_append
  | cloneHandle i =>
    have hlast : (b.handle i).goesBack = (b.handles.map Handle.goesBack)[i]?.getD true := by
      rw [List.getElem?_map, handle]
      cases b.handles[i]? <;> rfl
    rw [descend, ← hlast]
    exact List.map_append
  | start | stop | tick => rfl
  | startSpeaker | pollSpeaker | stopSpeaker => cases he

/-- The worker is switched as `switch` says. -/
theorem alive_act (he : e.ofSpeaker = false) :
    (b.act e).timer.worker.alive = switch b.timer.worker.alive e := by
  cases e with
  | start => exact b.timer.isRunning_start
  | tick =>
    simp only [TimerBoard.act, TimerBoard.tick, Timer.tick, switch]
    split <;> rfl
  | write | take | decrement => exact congrArg Worker.alive (worker_write _ _ _)
  | stop | addHandle | cloneHandle | addSeparate => rfl
  | startSpeaker | pollSpeaker | stopSpeaker => cases he

namespace Traced

theorem derived_iff (h : b.Traced past) : Derived past i ↔ b.handle i = .timer := by
  rw [Derived, ← h.handles, List.getElem?_map, handle]
  cases b.handles[i]? with
  | none => simp
  | some g => cases g <;> simp [Handle.goesBack]

/-- **An event hands out the handles and switches the worker as the history says.** -/
theorem act (h : b.Traced past) (he : e.ofSpeaker = false) : (b.act e).Traced (past ++ [e]) where
  handles := by
    rw [lineage, List.foldl_append, ← lineage, ← h.handles]
    exact goesBack_act he
  alive := by
    rw [startedLast, List.foldl_append, ← startedLast, ← h.alive]
    exact alive_act he

theorem run (h : b.Traced past) (hes : ∀ e ∈ es, e.ofSpeaker = false) :
    (b.run es).Traced (past ++ es) := by
  induction es generalizing b past with
  | nil => rwa [List.append_nil]
  | cons e es ih =>
    obtain ⟨he, hrest⟩ := List.forall_mem_cons.1 hes
    have hnext := ih (h.act he) hrest
    rwa [List.append_assoc] at hnext

/-- What an event does to the timer can be told from the history. -/
theorem timerStep?_eq (h : b.Traced past) (he : e.ofSpeaker = false) :
    b.timerStep? e = stepAfter past e := by
  cases e with
  | tick => simp only [timerStep?, stepAfter, h.alive]
  | write | take | decrement => simp only [timerStep?, stepAfter, onTimer, h.derived_iff]
  | start | stop | addHandle | cloneHandle | addSeparate => rfl
  | startSpeaker | pollSpeaker | stopSpeaker => cases he

theorem steps_eq (h : b.Traced past) (hes : ∀ e ∈ es, e.ofSpeaker = false) :
    polledTimer.steps b es = chronicle past es := by
  induction es generalizing b past with
  | nil => rfl
  | cons e es ih =>
    obtain ⟨he, hrest⟩ := List.forall_mem_cons.1 hes
    have hstep : polledTimer.step? b e = stepAfter past e := h.timerStep?_eq he
    rw [Polled.steps, chronicle, hstep]
    exact congrArg _ (ih (h.act he) hrest)

/-- **The timer shows what the steps of its history come to.** -/
theorem value_run (h : b.Traced past) (hes : ∀ e ∈ es, e.ofSpeaker = false) :
    (b.run es).timer.value = level b.timer.value (chronicle past es) := by
  rw [← h.steps_eq hes]
  exact polledTimer.value_run b es

/-- **What does not concern the timer leaves it alone**, with its worker. -/
theorem timer_act (h : b.Traced past) (he : e.ofSpeaker = false) (hnot : ¬ Concerns past e) :
    (b.act e).timer = b.timer := by
  have hwrite {i : Nat} (hi : ¬ Derived past i) (value : UInt8) :
      (b.write (b.handle i) value).timer = b.timer := by
    rw [h.derived_iff] at hi
    cases hhandle : b.handle i with
    | timer => exact absurd hhandle hi
    | separate k => rfl
  cases e with
  | write | take | decrement => exact hwrite hnot _
  | cloneHandle | addSeparate => rfl
  | start | stop | tick | addHandle => exact absurd trivial hnot
  | startSpeaker | pollSpeaker | stopSpeaker => cases he

/-- **What concerns the timer leaves other values alone.** -/
theorem separate_act (h : b.Traced past) (hconcerns : Concerns past e) :
    (b.act e).separate = b.separate := by
  have hwrite {i : Nat} (hi : Derived past i) (value : UInt8) :
      (b.write (b.handle i) value).separate = b.separate := by
    rw [h.derived_iff.1 hi]
    rfl
  cases e with
  | write | take | decrement => exact hwrite hconcerns _
  | start | stop | tick | addHandle | cloneHandle => rfl
  | addSeparate | startSpeaker | pollSpeaker | stopSpeaker => cases hconcerns

end Traced

/-- Handles stay what they were given out for. -/
theorem handle_act (he : e.ofSpeaker = false) (hi : i < b.handles.length) :
    (b.act e).handle i = b.handle i := by
  have hmore (more : List Handle) : (b.handles ++ more)[i]?.getD .timer = b.handle i := by
    rw [List.getElem?_append_left hi]
    rfl
  cases e with
  | write | take | decrement =>
    exact congrArg (fun handles : List Handle => handles[i]?.getD .timer) (handles_write _ _ _)
  | addHandle | cloneHandle | addSeparate => exact hmore _
  | start | stop | tick => rfl
  | startSpeaker | pollSpeaker | stopSpeaker => cases he

/-- A timer that runs is not started again. -/
theorem act_start_of_running (h : b.timer.isRunning = true) : b.act .start = b := by
  change { b with timer := b.timer.start } = b
  rw [Timer.start_of_alive h]

/-- **The history of a timer.**  On a new board, let anything happen to the timer and its handles, and
to other handles.  Then the timer shows the value that was written last through any of its handles,
less one for each count since then, and never less than zero; it shows zero if nothing was written.
Counts are those of the handles, and those of the worker at times when the latest start or stop was a
start.  Every handle that is derived from the timer reads the same.  The worker runs if the latest
start or stop was a start, and another start changes nothing at all.  An operation that does not
concern the timer leaves it alone, and so it does with what its handles read; one that does leaves
alone what other handles read. -/
theorem timer_history (interval : Nat) {es : List Event} (hes : ∀ e ∈ es, e.ofSpeaker = false) :
    let b := (new interval).run es
    (∀ before v since, chronicle [] es = before ++ .set v :: since → (∀ w, .set w ∉ since) →
      b.timer.value.toNat = v.toNat - since.count .count) ∧
    ((∀ v, .set v ∉ chronicle [] es) → b.timer.value = 0) ∧
    (∀ i, Derived es i → b.read (b.handle i) = b.timer.value) ∧
    b.timer.isRunning = startedLast es ∧
    (b.timer.isRunning = true → b.act .start = b) ∧
    ∀ e, e.ofSpeaker = false →
      (¬ Concerns es e → (b.act e).timer = b.timer) ∧
      ∀ i < b.handles.length, (Concerns es e ↔ ¬ Derived es i) →
        (b.act e).read ((b.act e).handle i) = b.read (b.handle i) := by
  intro b
  have htraced : b.Traced es := (traced_new interval).run hes
  have hvalue : b.timer.value = level 0 (chronicle [] es) := (traced_new interval).value_run hes
  have hpoll (k : Nat) : .poll k ∉ chronicle [] es := poll_notMem_chronicle k [] es
  refine ⟨?written, ?unwritten, ?handles, htraced.alive, act_start_of_running, ?apart⟩
  case written =>
    intro before v since hsplit hset
    have hpoll' (k : Nat) : .poll k ∉ since := fun hk => by
      refine hpoll k ?_
      rw [hsplit]
      exact List.mem_append_right _ (List.mem_cons_of_mem _ hk)
    rw [hvalue, hsplit, level_append]
    exact toNat_level hset hpoll'
  case unwritten =>
    intro hset
    rw [hvalue, ← UInt8.toNat_inj, toNat_level hset hpoll]
    exact Nat.zero_sub _
  case handles =>
    intro i hi
    rw [htraced.derived_iff.1 hi]
    rfl
  case apart =>
    intro e he
    refine ⟨htraced.timer_act he, fun i hi hsides => ?_⟩
    rw [handle_act he hi]
    cases hhandle : b.handle i with
    | timer =>
      have hderived : Derived es i := htraced.derived_iff.2 hhandle
      have hnot : ¬ Concerns es e := fun hconcerns => hsides.1 hconcerns hderived
      exact congrArg Timer.value (htraced.timer_act he hnot)
    | separate k =>
      have hother : ¬ Derived es i := by rw [htraced.derived_iff, hhandle]; simp
      have hsame := htraced.separate_act (hsides.2 hother)
      exact congrArg (fun values : List UInt8 => values[k]?.getD 0) hsame

/-- A timer is set through a clone, counted down by its worker and by hand, and left running by a
second start. -/
def counting : List Event :=
  [.addSeparate 9, .cloneHandle 0, .start, .start, .write 2 5, .tick, .decrement 0, .write 1 7, .stop,
    .tick]

theorem timer_history_counting :
    let b := (new 1).run counting
    b.timer.value = 3 ∧ b.read (b.handle 2) = 3 ∧ b.timer.isRunning = false := by
  intro b
  have hes : ∀ e ∈ counting, e.ofSpeaker = false := by decide
  obtain ⟨hwritten, -, hhandles, hrunning, -, -⟩ := timer_history 1 hes
  have hvalue : b.timer.value = 3 := by
    rw [← UInt8.toNat_inj]
    exact hwritten [] 5 [.count, .count] (by decide) (by simp)
  exact ⟨hvalue, (hhandles 2 (by decide)).trans hvalue, hrunning⟩

end TimerBoard
end Chip8
