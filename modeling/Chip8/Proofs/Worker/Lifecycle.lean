import Chip8.Proofs.Worker.Orderly

/-!
# The life of a worker on threads

What a worker has been through is the list of the steps that it took, each with the state in which it
took it.  From such a history one reads to whom the host sent, whom it joined, and which threads
ended, and in which way.  `Chronicle` says that the history and the state agree: the host has sent to
the threads one after the other, and joined them one after the other, up to the one it still holds;
a thread has ended, or died, exactly if the history says so; and the log has one report for each
joined thread that died.

A thread that was joined is never touched again, so the former threads are a part of the state that
stays as it is, whatever comes after.

## What is here

* `ThreadWorker.History`, `ThreadWorker.taken` — the steps that were taken.
* `ThreadWorker.Chronicle` — what a history says about the state; `Chronicle.run` for every run.
* `Orderly.joined_steps` — threads that were joined stay as they are.
* `ThreadWorker.lifecycle` — what host and threads can rely on, at every moment and at the return of
  every call.
-/

set_option autoImplicit false

namespace Chip8
namespace ThreadWorker

/-! ## Histories -/

/-- The steps a worker has taken, each with the state it was taken in. -/
abbrev History := List (ThreadWorker × Event)

/-- The steps of a list that are possible, when they are taken one after the other. -/
def taken (w : ThreadWorker) : List Event → History
  | [] => []
  | e :: es =>
    match w.step? e with
    | none => w.taken es
    | some o => (w, e) :: o.state.taken es

namespace History

/-- The steps alone. -/
def events (h : History) : List Event := h.map Prod.snd

/-- The threads that the host sent a message to. -/
def sends (h : History) : List Nat :=
  h.flatMap fun (w, e) => if e = .send then w.sender.toList else []

/-- The threads that the host joined. -/
def joins (h : History) : List Nat :=
  h.flatMap fun (w, e) => if e = .join then w.handle.toList else []

/-- One report for each thread that died in its callback and was joined. -/
def reports (h : History) : List Record :=
  (h.joins.filter fun k => .panic k ∈ h.events).map fun _ => .threadPanicked

variable (h : History) (w : ThreadWorker) (e : Event)

theorem events_concat : events (h ++ [(w, e)]) = h.events ++ [e] := List.map_append

theorem sends_concat :
    sends (h ++ [(w, e)]) = h.sends ++ if e = .send then w.sender.toList else [] := by
  rw [sends, List.flatMap_append, List.flatMap_singleton]
  rfl

theorem joins_concat :
    joins (h ++ [(w, e)]) = h.joins ++ if e = .join then w.handle.toList else [] := by
  rw [joins, List.flatMap_append, List.flatMap_singleton]
  rfl

end History

/-! ## What a history says about the state -/

/-- What thread `k` is doing. -/
def phase? (w : ThreadWorker) (k : Nat) : Option Thread.Phase := w.threads[k]?.map Thread.phase

/-- How many threads the host has sent to. -/
def sent (w : ThreadWorker) : Nat := w.sender.getD w.threads.length

/-- How many threads the host has joined. -/
def joined (w : ThreadWorker) : Nat := w.handle.getD w.threads.length

/-- **The history and the log of a worker are those that led to its state.** -/
structure Chronicle (w : ThreadWorker) (h : History) (log : List Record) : Prop where
  orderly : w.Orderly
  panicked : ∀ k, .panic k ∈ h.events ↔ w.phase? k = some .panicked
  ended : ∀ k, .finish k ∈ h.events ↔ w.phase? k = some .ended
  sends : h.sends = List.range w.sent
  joins : h.joins = List.range w.joined
  log : log = h.reports

variable {w v : ThreadWorker} {e : Event} {p : Purpose} {k : Nat} {h : History}
  {log reported : List Record}

/-- What is started by a call. -/
def Purpose.threads : Purpose → List Thread
  | .start task => [.spawn task]
  | .stop | .drop => []

theorem threads_proceed : (w.proceed p).threads = w.threads ++ p.threads := by
  cases p with
  | start task => rfl
  | stop | drop => exact (List.append_nil w.threads).symm

theorem joined_proceed : (proceed { w with handle := none } p).joined = w.threads.length := by
  cases p <;> rfl

theorem sent_proceed (hw : w.sender = none) :
    (proceed { w with handle := none } p).sent = w.threads.length := by
  cases p with
  | start task => rfl
  | stop | drop =>
    rw [sent, proceed, hw]
    rfl

theorem phase?_eq_some {t : Thread} (ht : w.threads[k]? = some t) : w.phase? k = some t.phase := by
  rw [phase?, ht]
  rfl

/-- A new thread waits; the others are what they were. -/
theorem phase?_proceed :
    (proceed { w with handle := none } p).phase? k = w.phase? k ∨
      w.phase? k = none ∧ (proceed { w with handle := none } p).phase? k = some .waiting := by
  rw [phase?, phase?, threads_proceed]
  cases p with
  | stop | drop => exact .inl (by rw [Purpose.threads, List.append_nil])
  | start task =>
    rw [Purpose.threads]
    rcases Lists.getElem?_concat w.threads (.spawn task) k with hk | ⟨rfl, hlast⟩
    · exact .inl (by rw [hk])
    · rw [hlast, List.getElem?_eq_none (Nat.le_refl _)]
      exact .inr ⟨rfl, rfl⟩

/-- **A step and a thread**: the thread takes it, or stays as it is, or is new. -/
theorem Stepped.phase? (h : Stepped w e v log) (k : Nat) :
    (v.phase? k = w.phase? k ∧ e.thread? ≠ some k) ∨
      (w.phase? k = none ∧ v.phase? k = some .waiting ∧ e.thread? = none) ∨
      ∃ t t' dropped, w.threads[k]? = some t ∧ v.threads[k]? = some t' ∧ Move e k t t' dropped := by
  have hproceed {p : Purpose} (he : e.thread? = none)
      (hv : v = proceed { w with handle := none } p) :
      (v.phase? k = w.phase? k ∧ e.thread? ≠ some k) ∨
        (w.phase? k = none ∧ v.phase? k = some .waiting ∧ e.thread? = none) := by
    subst hv
    rcases phase?_proceed with hk | ⟨hk, hk'⟩
    · exact .inl ⟨hk, by rw [he]; nofun⟩
    · exact .inr ⟨hk, hk', he⟩
  cases h with
  | call | pass => exact .inl ⟨rfl, nofun⟩
  | @send q j t t' _ _ ht hsent =>
    refine .inl ⟨?_, nofun⟩
    by_cases hj : j = k
    · subst hj
      have hlt : j < w.threads.length := (List.getElem?_eq_some_iff.1 ht).1
      rw [phase?_eq_some ht, ThreadWorker.phase?, List.getElem?_set_self hlt, Option.map_some,
        Thread.disconnect, Thread.send?_phase hsent]
    · rw [ThreadWorker.phase?, ThreadWorker.phase?, List.getElem?_set_ne hj]
  | goOn => exact (hproceed rfl rfl).imp_right .inl
  | join => exact (hproceed rfl rfl).imp_right .inl
  | @move _ j dropped t t' ht hmove =>
    by_cases hj : j = k
    · subst hj
      have hlt : j < w.threads.length := (List.getElem?_eq_some_iff.1 ht).1
      exact .inr (.inr ⟨t, t', dropped, ht, List.getElem?_set_self hlt, hmove⟩)
    · refine .inl ⟨?_, ?_⟩
      · rw [ThreadWorker.phase?, ThreadWorker.phase?, List.getElem?_set_ne hj]
      · rw [hmove.thread]
        exact fun hjk => hj (Option.some.inj hjk)

/-- A way to end a thread, by the step `last` into the phase `φ`: if the history knew before who
ended that way, it still does. -/
theorem Stepped.mem_events_concat {last : Nat → Event} {φ : Thread.Phase}
    (hstep : Stepped w e v log) (hthread : (last k).thread? = some k)
    (hrunning : ∀ t : Thread, t.phase = φ → t.running = false)
    (hmove : ∀ t t' dropped, Move e k t t' dropped → (t'.phase = φ ↔ e = last k))
    (hk : last k ∈ h.events ↔ w.phase? k = some φ) :
    last k ∈ History.events (h ++ [(w, e)]) ↔ v.phase? k = some φ := by
  have hwaiting : φ ≠ .waiting := by
    rintro rfl
    cases hrunning (.spawn ⟨0, 0, false⟩) rfl
  rw [History.events_concat, List.mem_append, List.mem_singleton, hk]
  rcases hstep.phase? k with ⟨hv, he⟩ | ⟨hw, hv, he⟩ | ⟨t, t', dropped, ht, ht', hm⟩
  · have hlast : last k ≠ e := fun hlast => he (hlast ▸ hthread)
    rw [hv, or_iff_left hlast]
  · have hlast : last k ≠ e := fun hlast => by
      rw [← hlast, hthread] at he
      cases he
    rw [hw, hv, or_iff_left hlast]
    simpa using hwaiting.symm
  · have hnot : t.phase ≠ φ := fun hphase => by
      have hfalse := hrunning t hphase
      rw [hm.running] at hfalse
      cases hfalse
    rw [phase?_eq_some ht, phase?_eq_some ht', Option.some.injEq, Option.some.injEq,
      or_iff_right hnot, hmove t t' dropped hm]
    exact eq_comm

theorem chronicle_new : Chronicle new [] [] where
  orderly := orderly_new
  panicked k := by simp [History.events, phase?, new]
  ended k := by simp [History.events, phase?, new]
  sends := rfl
  joins := rfl
  log := rfl

namespace Chronicle

theorem not_mem_joins (hw : Chronicle w h log) (hk : w.handle = some k) : k ∉ h.joins := by
  rw [hw.joins, joined, hk, List.mem_range]
  exact Nat.lt_irrefl k

/-- The reports after a step that does not join anybody. -/
theorem reports_concat_of_ne_join (hw : Chronicle w h log) (hstep : Stepped w e v reported)
    (he : e ≠ .join) : History.reports (h ++ [(w, e)]) = h.reports := by
  rw [History.reports, History.reports, History.joins_concat, if_neg he, List.append_nil]
  congr 1
  refine List.filter_congr fun k hk => ?_
  have hne : Event.panic k ≠ e := by
    rintro rfl
    cases hstep with
    | @move _ j dropped t t' ht hmove =>
      obtain rfl : j = k := Option.some.inj hmove.thread.symm
      exact hw.not_mem_joins (hw.orderly.running j t ht hmove.running) hk
  refine decide_eq_decide.2 ?_
  rw [History.events_concat, List.mem_append, List.mem_singleton, or_iff_left hne]

/-- The reports after a step that joins. -/
theorem reports_concat_join (h : History) (w : ThreadWorker) :
    History.reports (h ++ [(w, .join)]) = h.reports ++
      (w.handle.toList.filter fun k => .panic k ∈ h.events).map fun _ => .threadPanicked := by
  have hevents (k : Nat) :
      Event.panic k ∈ History.events (h ++ [(w, .join)]) ↔ .panic k ∈ h.events := by
    rw [History.events_concat, List.mem_append, List.mem_singleton, or_iff_left nofun]
  rw [History.reports, History.joins_concat, if_pos rfl, List.filter_append, List.map_append]
  simp only [hevents]
  rfl

/-- What the host reports when it joins. -/
theorem reported_join (hw : Chronicle w h log) (hstep : Stepped w .join v reported) :
    reported = (w.handle.toList.filter fun k => .panic k ∈ h.events).map fun _ => .threadPanicked := by
  cases hstep with
  | goOn _ hhandle => rw [hhandle]; rfl
  | @join p k t _ hhandle ht _ =>
    have hpanicked : Event.panic k ∈ h.events ↔ t.phase = .panicked := by
      rw [hw.panicked, phase?_eq_some ht, Option.some.injEq]
    by_cases hphase : t.phase = .panicked
    · simp [hhandle, hpanicked, hphase]
    · simp [hhandle, hpanicked, hphase]
  | move _ hmove => cases hmove.thread

/-- A host that joins has joined all threads. -/
theorem joins_join (hw : Chronicle w h log) :
    History.joins (h ++ [(w, .join)]) = List.range w.threads.length := by
  rw [History.joins_concat, if_pos rfl, hw.joins, joined]
  cases hhandle : w.handle with
  | none => exact List.append_nil _
  | some k =>
    rw [hw.orderly.latest k hhandle, List.range_succ]
    rfl

/-- The host sends to the threads one after the other. -/
theorem sends_step (hw : Chronicle w h log) (hstep : Stepped w e v reported) :
    History.sends (h ++ [(w, e)]) = List.range v.sent := by
  have hsent {p : Purpose} (hhost : w.host = .joining p) :
      w.sent = (proceed { w with handle := none } p).sent := by
    have hnone : w.sender = none := by
      rw [hw.orderly.sender, hhost]
      rfl
    rw [sent_proceed hnone, sent, hnone]
    rfl
  rw [History.sends_concat, hw.sends]
  cases hstep with
  | call => exact List.append_nil _
  | pass _ hsender =>
    rw [sent, hsender]
    exact List.append_nil _
  | @send p k t t' _ hsender ht _ =>
    have hlength : w.threads.length = k + 1 :=
      hw.orderly.latest k (hw.orderly.handle_of_sender hsender)
    rw [sent, sent, hsender, Option.getD_none, List.length_set, hlength, List.range_succ]
    rfl
  | goOn hhost | join hhost =>
    rw [← hsent hhost]
    exact List.append_nil _
  | move ht hmove =>
    have hne : e ≠ .send := by
      rintro rfl
      cases hmove.thread
    rw [if_neg hne, List.append_nil, sent, sent, List.length_set]

/-- The host joins the threads one after the other. -/
theorem joins_step (hw : Chronicle w h log) (hstep : Stepped w e v reported) :
    History.joins (h ++ [(w, e)]) = List.range v.joined := by
  by_cases he : e = .join
  · subst he
    rw [hw.joins_join]
    cases hstep with
    | goOn | join => rw [joined_proceed]
    | move ht hmove => cases hmove.thread
  · rw [History.joins_concat, if_neg he, List.append_nil, hw.joins]
    cases hstep with
    | call | pass => rfl
    | send | move => rw [joined, joined, List.length_set]
    | goOn | join => exact absurd rfl he

/-- **A step is added to the history.** -/
theorem step (hw : Chronicle w h log) (hstep : Stepped w e v reported) (hv : v.Orderly) :
    Chronicle v (h ++ [(w, e)]) (log ++ reported) where
  orderly := hv
  panicked k :=
    hstep.mem_events_concat rfl (fun t ht => by rw [Thread.running, ht])
      (fun _ _ _ hmove => hmove.panicked) (hw.panicked k)
  ended k :=
    hstep.mem_events_concat rfl (fun t ht => by rw [Thread.running, ht])
      (fun _ _ _ hmove => hmove.ended) (hw.ended k)
  sends := hw.sends_step hstep
  joins := hw.joins_step hstep
  log := by
    by_cases he : e = .join
    · subst he
      rw [reports_concat_join, ← hw.log, hw.reported_join hstep]
    · have hnone : reported = [] := by
        cases hstep with
        | goOn | join => exact absurd rfl he
        | _ => rfl
      rw [hnone, List.append_nil, hw.reports_concat_of_ne_join hstep he, hw.log]

/-- **What holds at every moment of every run.** -/
theorem run (hw : Chronicle w h log) (es : List Event) :
    Chronicle (w.steps es).state (h ++ w.taken es) (log ++ (w.steps es).log) := by
  induction es generalizing w h log with
  | nil =>
    rw [taken, List.append_nil]
    exact (List.append_nil log).symm ▸ hw
  | cons e es ih =>
    cases hstep : w.step? e with
    | none =>
      rw [Orderly.steps_cons_of_none hstep, taken, hstep]
      exact ih hw
    | some o =>
      have hnext := ih (hw.step (hw.orderly.stepped hstep) (hw.orderly.step hstep))
      rw [Orderly.steps_cons_of_some hstep, taken, hstep]
      rw [List.append_assoc, List.append_assoc] at hnext
      exact hnext

end Chronicle

/-! ## Threads that were joined -/

namespace Orderly

/-- **A step leaves the threads that were joined as they are**, and joins at most more. -/
theorem joined_stepped (hw : w.Orderly) (hstep : Stepped w e v log) :
    w.joined ≤ v.joined ∧ ∀ k < w.joined, v.threads[k]? = w.threads[k]? := by
  have hset {j k : Nat} (t : Thread) (hj : w.handle = some j) (hk : k < w.joined) :
      (w.threads.set j t)[k]? = w.threads[k]? := by
    rw [joined, hj] at hk
    exact List.getElem?_set_ne (Nat.ne_of_gt hk)
  have hproceed (p : Purpose) (hle : w.joined ≤ w.threads.length) :
      let v := ThreadWorker.proceed { w with handle := none } p
      w.joined ≤ v.joined ∧ ∀ k < w.joined, v.threads[k]? = w.threads[k]? := by
    refine ⟨by rwa [joined_proceed], fun k hk => ?_⟩
    rw [threads_proceed]
    exact List.getElem?_append_left (Nat.lt_of_lt_of_le hk hle)
  cases hstep with
  | call | pass => exact ⟨Nat.le_refl _, fun _ _ => rfl⟩
  | @send p j t t' _ hsender _ _ =>
    refine ⟨Nat.le_of_eq ?_, fun k => hset t'.disconnect (hw.handle_of_sender hsender)⟩
    rw [joined, joined, List.length_set]
  | goOn _ hhandle => exact hproceed _ (by rw [joined, hhandle]; exact Nat.le_refl _)
  | @join p j t _ hhandle _ _ =>
    refine hproceed _ ?_
    rw [joined, hhandle, hw.latest j hhandle]
    exact Nat.le_succ j
  | @move _ j dropped t t' ht hmove =>
    refine ⟨Nat.le_of_eq ?_, fun k => hset t' (hw.running j t ht hmove.running)⟩
    rw [joined, joined, List.length_set]

/-- A run does so too. -/
theorem joined_steps (hw : w.Orderly) (es : List Event) :
    ∀ k < w.joined, (w.steps es).state.threads[k]? = w.threads[k]? := by
  induction es generalizing w with
  | nil => exact fun _ _ => rfl
  | cons e es ih =>
    cases hstep : w.step? e with
    | none =>
      rw [steps_cons_of_none hstep]
      exact ih hw
    | some o =>
      obtain ⟨hle, hsame⟩ := hw.joined_stepped (hw.stepped hstep)
      rw [steps_cons_of_some hstep]
      intro k hk
      rw [ih (hw.step hstep) k (Nat.lt_of_lt_of_le hk hle), hsame k hk]

end Orderly

/-! ## The life of a worker -/

/-- **A worker is alive as long as its latest thread has neither ended nor died.** -/
theorem Chronicle.isAlive_iff (hw : Chronicle w h log) :
    w.isAlive = true ↔
      ∃ k, w.threads.length = k + 1 ∧ .finish k ∉ h.events ∧ .panic k ∉ h.events := by
  rw [hw.orderly.isAlive_iff]
  constructor
  · rintro ⟨k, t, ht, hrun⟩
    refine ⟨k, hw.orderly.latest k (hw.orderly.running k t ht hrun), ?_, ?_⟩
    all_goals
      simp only [hw.ended, hw.panicked, phase?_eq_some ht, Option.some.injEq]
      intro hphase
      rw [Thread.running, hphase] at hrun
      cases hrun
  · rintro ⟨k, hlength, hended, hpanicked⟩
    have hk : w.threads[k]? = some w.threads[k] := List.getElem?_eq_getElem (by omega)
    refine ⟨k, w.threads[k], hk, ?_⟩
    rw [hw.ended, phase?_eq_some hk, Option.some.injEq] at hended
    rw [hw.panicked, phase?_eq_some hk, Option.some.injEq] at hpanicked
    rw [Thread.running]
    split <;> simp_all

/-- A thread that ended as it was told to did not die. -/
theorem Chronicle.panic_not_mem (hw : Chronicle w h log) (hk : .finish k ∈ h.events) :
    .panic k ∉ h.events := by
  rw [hw.ended] at hk
  rw [hw.panicked, hk]
  nofun

/-- A worker whose threads do not run any more is not alive until it is started again. -/
theorem Orderly.isAlive_eq_false (hv : v.Orderly) {threads : List Thread}
    (hstopped : ∀ t ∈ threads, t.running = false) (hv' : v.threads = threads) :
    v.isAlive = false := by
  refine Bool.eq_false_iff.mpr fun halive => ?_
  obtain ⟨k, t, ht, hrun⟩ := hv.isAlive_iff.1 halive
  rw [hstopped t (hv' ▸ List.mem_of_getElem? ht)] at hrun
  cases hrun

/-- **The life of a worker.**  Whatever calls the host makes and whatever the threads do, in any
order: at most one thread runs; the worker is alive exactly until its latest thread ends or dies;
sending is always possible, no thread is sent to twice, and the host waits in a join only for a
thread that can still go on; no thread is joined twice, and each one that died, and was not told to
end, is reported as it is joined.

When a call returns, all threads so far have been joined and none of them runs or ever does anything
again; the worker is alive if the call was to start it, and otherwise stays dead until it is started
again. -/
theorem lifecycle (es : List Event) :
    let w := (new.steps es).state
    let h := new.taken es
    w.threads.countP Thread.running ≤ 1 ∧
      (w.isAlive = true ↔
        ∃ k, w.threads.length = k + 1 ∧ .finish k ∉ h.events ∧ .panic k ∉ h.events) ∧
      (∀ p, w.host = .sending p → (w.step? .send).isSome = true) ∧
      (∀ p, w.host = .joining p → (w.step? .join).isSome = true ∨
        ∃ k, (w.step? (.return k)).isSome = true ∨ (w.step? (.finish k)).isSome = true) ∧
      h.sends.Nodup ∧
      h.joins.Nodup ∧
      (new.steps es).log = h.reports ∧
      (∀ k, .finish k ∈ h.events → .panic k ∉ h.events) ∧
      ∀ p o, w.host = .joining p → w.step? .join = some o →
        History.joins (h ++ [(w, .join)]) = List.range w.threads.length ∧
        o.log = (w.handle.toList.filter fun k => .panic k ∈ h.events).map
          (fun _ => .threadPanicked) ∧
        (∀ t ∈ w.threads, t.running = false) ∧
        o.state.threads = w.threads ++ p.threads ∧
        (o.state.isAlive = true ↔ ∃ task, p = .start task) ∧
        ∀ fs,
          let v := (o.state.steps fs).state
          w.threads <+: v.threads ∧ (v.threads.length = w.threads.length → v.isAlive = false) := by
  intro w h
  have hw : Chronicle w h (new.steps es).log := chronicle_new.run es
  refine ⟨hw.orderly.countP_running_le, hw.isAlive_iff, fun _ => hw.orderly.send_possible,
    fun _ => hw.orderly.join_possible_or, hw.sends ▸ List.nodup_range,
    hw.joins ▸ List.nodup_range, hw.log, fun _ => hw.panic_not_mem, fun p o hhost hstep => ?_⟩
  obtain ⟨hstate, hstopped⟩ := hw.orderly.step_join hhost hstep
  have ho : o.state.Orderly := hw.orderly.step hstep
  have hthreads : o.state.threads = w.threads ++ p.threads := by
    rw [hstate]
    exact threads_proceed
  have hkept (fs : List Event) : w.threads <+: (o.state.steps fs).state.threads := by
    refine List.prefix_iff_getElem?.2 fun k hk => ?_
    have hjoined : k < o.state.joined := by rwa [hstate, joined_proceed]
    rw [ho.joined_steps fs k hjoined, hthreads, List.getElem?_append_left hk]
    exact List.getElem?_eq_getElem hk
  refine ⟨hw.joins_join, hw.reported_join (hw.orderly.stepped hstep), hstopped, hthreads, ?alive,
    fun fs => ⟨hkept fs, fun hlength => ?dead⟩⟩
  case alive =>
    cases p with
    | start task =>
      refine iff_of_true (ho.isAlive_iff.2 ⟨w.threads.length, .spawn task, ?_, rfl⟩) ⟨task, rfl⟩
      rw [hthreads]
      exact List.getElem?_concat_length
    | stop | drop =>
      refine iff_of_false (Bool.eq_false_iff.mp ?_) (by rintro ⟨task, hp⟩; cases hp)
      exact ho.isAlive_eq_false hstopped (hthreads.trans (List.append_nil _))
  case dead =>
    exact (ho.steps fs).isAlive_eq_false hstopped ((hkept fs).eq_of_length hlength.symm).symm

/-- A thread that dies in its callback is not alive any more, is reported by the `stop` that joins
it, and by no other. -/
example :
    let o := new.steps
      [.call (.start ⟨10, 0, true⟩), .send, .join, .enter 0, .panic 0, .call .stop, .send, .join,
        .call .stop, .send, .join]
    o.state.isAlive = false ∧ o.log = [.threadPanicked] := by
  decide

end ThreadWorker
end Chip8
